/-
  What the rounding of a packed store does to a text.

  * `printed`: a text from the digits after the point on, behind any front;
  * `roundText_text`: the exponent is read with sixteen as its base;
  * `roundAt_before`, `roundAt_within`, `roundAt_after`: the place that decides lies before the
    digits, among them, or behind them.
-/
import CuteMac.Fpu.PackedText

namespace CuteMac.Fpu

open Digits

/-- A text with its digits after the point and its exponent. -/
def printed (front : Text) (ds : List ℕ) (expNegative : Bool) (es : List ℕ) : Text :=
  front ++ (ds.map digitChar ++ exponentText expNegative es)

/-- The exponent with its digits read as hexadecimal. -/
def Scientific.hexExponent (t : Scientific) : ℤ :=
  if t.expNegative then -(number 16 t.expDigits : ℤ) else number 16 t.expDigits

/-- The character that decides the rounding, counted from the first digit after the point. -/
def Scientific.place (t : Scientific) (k : UInt32) : ℤ := t.hexExponent - k.toInt32.toInt

section
variable {front rest : Text} {ds es : List ℕ} {expNegative : Bool} {n : ℤ}

/-! ## Characters -/

theorem charAt_neg (str : Text) {i : ℤ} (h : i < 0) : charAt str i = none := if_neg (by omega)

theorem setChar_some {str s : Text} {i : ℤ} {c : UInt8} (h : setChar str i c = some s) :
    0 ≤ i ∧ i.toNat < str.length ∧ s = str.set i.toNat c := by
  unfold setChar at h
  split_ifs at h with hi
  exact ⟨hi.1, hi.2, (Option.some.inj h).symm⟩

theorem setChar_next (front : Text) (c d : UInt8) (rest : Text) :
    setChar (front ++ c :: rest) front.length d = some (front ++ d :: rest) := by
  unfold setChar
  rw [if_pos ⟨Int.natCast_nonneg _, by simp⟩, Int.toNat_natCast]
  simp

theorem zeroDigits_eq (front mid rest : Text) :
    zeroDigits (front ++ (mid ++ rest)) front.length mid.length
      = some (front ++ (List.replicate mid.length 0x30 ++ rest)) := by
  induction mid generalizing front with
  | nil => rfl
  | cons c mid ih =>
    have hset : setChar (front ++ (c :: mid ++ rest)) front.length 0x30
        = some ((front ++ [0x30]) ++ (mid ++ rest)) := by
      rw [List.cons_append, setChar_next, List.append_assoc]
      rfl
    have hplace : (front.length : ℤ) + 1 = ((front ++ [(0x30 : UInt8)]).length : ℕ) := by simp
    rw [List.length_cons]
    unfold zeroDigits
    rw [hset, Option.bind_eq_bind, Option.bind_some, hplace, ih]
    simp [List.replicate_succ]

/-- A character behind the digits. -/
theorem charAt_behind (hds : ds.length = 16) (front : Text) (expNegative : Bool) (es : List ℕ)
    (i : ℕ) :
    charAt (printed front ds expNegative es) (front.length + 16 + i)
      = (exponentText expNegative es)[i]? := by
  have hplace : (front.length : ℤ) + 16 + i = (front.length + (16 + i) : ℕ) := by push_cast; ring
  have hmap : (ds.map digitChar).length = 16 := by rw [List.length_map, hds]
  unfold printed
  rw [hplace, charAt_append, List.getElem?_append_right (by omega), hmap,
    Nat.add_sub_cancel_left]

/-! ## The place -/

theorem hexExponent_digit {str : Text} {ch n d : ℕ} (hd : d < 10)
    (h : charAt str (ch + 18 + (2 - n : ℕ)) = some (digitChar d)) (e : ℕ) :
    hexExponent str ch (n + 1) e = hexExponent str ch n (16 * e + d) := by
  conv_lhs => unfold hexExponent
  rw [h, Option.bind_eq_bind, Option.bind_some, if_pos (isDigit_digitChar hd), toNat_digitChar hd,
    Nat.add_sub_cancel_left]

theorem hexExponent_printed (hds : ds.length = 16) (hlen : es.length = 2 ∨ es.length = 3)
    (h : ∀ d ∈ es, d < 10) :
    hexExponent (printed front ds expNegative es) front.length 3 0 = some (number 16 es) := by
  have hat : ∀ i : ℕ, charAt (printed front ds expNegative es) (front.length + 18 + i)
      = (es.map digitChar ++ [0])[i]? := by
    intro i
    have hplace : (front.length : ℤ) + 18 + i = front.length + 16 + (2 + i : ℕ) := by
      push_cast
      ring
    rw [hplace, charAt_behind hds, Nat.add_comm 2]
    rfl
  rcases hlen with hlen | hlen
  · obtain ⟨a, b, rfl⟩ := List.length_eq_two.1 hlen
    have ha : a < 10 := h a (by simp)
    have hb : b < 10 := h b (by simp)
    rw [hexExponent_digit ha (hat 0), hexExponent_digit hb (hat 1)]
    have hend : charAt (printed front ds expNegative [a, b]) (front.length + 18 + (2 - 0 : ℕ))
        = some 0 := hat 2
    conv_lhs => unfold hexExponent
    rw [hend, Option.bind_eq_bind, Option.bind_some]
    show some (16 * (16 * 0 + a) + b) = _
    rw [Nat.mul_zero, Nat.zero_add, ← number_single 16 a, ← number_concat]
    rfl
  · obtain ⟨a, b, c, rfl⟩ := List.length_eq_three.1 hlen
    have ha : a < 10 := h a (by simp)
    have hb : b < 10 := h b (by simp)
    have hc : c < 10 := h c (by simp)
    rw [hexExponent_digit ha (hat 0), hexExponent_digit hb (hat 1), hexExponent_digit hc (hat 2)]
    show some (16 * (16 * (16 * 0 + a) + b) + c) = _
    rw [Nat.mul_zero, Nat.zero_add, ← number_single 16 a, ← number_concat, ← number_concat]
    rfl

/-- The rounding of a text is that at its place. -/
theorem roundText_text (t : Scientific) (k : UInt32) :
    roundText t.text t.front.length k.toInt32.toInt
      = roundAt t.text t.front.length (t.place k - 1) := by
  have hexp : hexExponent t.text t.front.length 3 0 = some (number 16 t.expDigits) :=
    hexExponent_printed t.fraction_length t.exp_length t.exp_lt
  have hsign : charAt t.text (t.front.length + 17)
      = some (if t.expNegative then 0x2d else 0x2b) := by
    have hplace : (t.front.length : ℤ) + 17 = t.front.length + 16 + (1 : ℕ) := by push_cast; ring
    rw [hplace]
    exact charAt_behind t.fraction_length t.front t.expNegative t.expDigits 1
  unfold roundText
  rw [hexp, Option.bind_eq_bind, Option.bind_some, hsign, Option.bind_eq_bind, Option.bind_some]
  have hplace : -k.toInt32.toInt + (t.hexExponent - 1) = t.place k - 1 := by
    unfold Scientific.place
    ring
  rw [← hplace]
  unfold Scientific.hexExponent
  cases t.expNegative with
  | true => rfl
  | false => rfl

/-! ## A place before the digits -/

theorem zeroDigits_before (expNegative : Bool) (es : List ℕ) (hds : ds.length = 16) {m : ℕ}
    (hm : m ≤ front.length) :
    zeroDigits (printed front ds expNegative es) m (front.length - m + 16)
      = some (printed (front.take m ++ List.replicate (front.length - m) 0x30)
          (List.replicate 16 0) expNegative es) := by
  have hsplit : printed front ds expNegative es
      = front.take m ++ ((front.drop m ++ ds.map digitChar) ++ exponentText expNegative es) := by
    unfold printed
    rw [List.append_assoc (front.drop m), ← List.append_assoc (front.take m),
      List.take_append_drop]
  have hcount : front.length - m + 16 = (front.drop m ++ ds.map digitChar).length := by
    rw [List.length_append, List.length_drop, List.length_map, hds]
  have hplace : m = (front.take m).length := by
    rw [List.length_take]
    omega
  have hzeros := zeroDigits_eq (front.take m) (front.drop m ++ ds.map digitChar)
    (exponentText expNegative es)
  rw [← hsplit, ← hcount, ← hplace, List.replicate_add] at hzeros
  rw [hzeros]
  unfold printed
  rw [List.map_replicate, List.append_assoc, List.append_assoc]
  rfl

/-- A place before the digits leaves zeros for all of them. -/
theorem roundAt_before {s : Text} (hds : ds.length = 16) (hn : n ≤ 0)
    (h : roundAt (printed front ds expNegative es) front.length (n - 1) = some s) :
    ∃ front', front'.length = front.length
      ∧ s = printed front' (List.replicate 16 0) expNegative es := by
  unfold roundAt at h
  obtain ⟨next, hnext, h⟩ := Option.bind_eq_some_iff.1 h
  obtain ⟨bumped, hbumped, h⟩ := Option.bind_eq_some_iff.1 h
  have hfront : ∃ front', front'.length = front.length
      ∧ bumped = printed front' ds expNegative es := by
    unfold bump at hbumped
    split_ifs at hbumped
    · obtain ⟨last, -, hset⟩ := Option.bind_eq_some_iff.1 hbumped
      obtain ⟨h0, -, rfl⟩ := setChar_some hset
      refine ⟨front.set (front.length + (n - 1)).toNat (last + 1), List.length_set, ?_⟩
      unfold printed
      rw [List.set_append_left _ _ (by omega)]
    · exact ⟨front, rfl, (Option.some.inj hbumped).symm⟩
  obtain ⟨front', hlength, rfl⟩ := hfront
  have h0 : 0 ≤ (front.length : ℤ) + n := by
    by_contra hneg
    rw [charAt_neg _ (by omega)] at hnext
    exact absurd hnext.symm (by simp)
  obtain ⟨m, hm⟩ := Int.eq_ofNat_of_zero_le h0
  have hplace : (front.length : ℤ) + (n - 1 + 1) = (m : ℕ) := by omega
  have hcount : (16 - (n - 1 + 1)).toNat = front'.length - m + 16 := by omega
  rw [hplace, hcount, zeroDigits_before _ _ hds (by omega)] at h
  refine ⟨_, ?_, (Option.some.inj h).symm⟩
  rw [List.length_append, List.length_take, List.length_replicate]
  omega

/-- What makes the rounding stay in the text. -/
theorem roundAt_before_some (expNegative : Bool) (es : List ℕ) (hds : ds.length = 16) (hn : n ≤ 0)
    (h0 : 0 ≤ (front.length : ℤ) + n)
    (hbump : ∀ c, charAt (printed front ds expNegative es) (front.length + n) = some c →
      0x35 ≤ c → 0 < (front.length : ℤ) + n) :
    ∃ s, roundAt (printed front ds expNegative es) front.length (n - 1) = some s := by
  obtain ⟨m, hm⟩ := Int.eq_ofNat_of_zero_le h0
  have hlength : m < (printed front ds expNegative es).length := by
    unfold printed
    rw [List.length_append, List.length_append, List.length_map]
    omega
  have hplace : (front.length : ℤ) + (n - 1 + 1) = (m : ℕ) := by omega
  have hchar : ∀ i (hi : i < (printed front ds expNegative es).length),
      charAt (printed front ds expNegative es) (i : ℕ)
        = some (printed front ds expNegative es)[i] := by
    intro i hi
    unfold charAt
    rw [if_pos (Int.natCast_nonneg _), Int.toNat_natCast, List.getElem?_eq_getElem hi]
  have hcount : (16 - (n - 1 + 1)).toNat = front.length - m + 16 := by omega
  unfold roundAt
  rw [hplace, hchar m hlength, Option.bind_eq_bind, Option.bind_some, hcount]
  unfold bump
  split_ifs with hnext
  · have hpos : 0 < m := by
      have hpos := hbump _ (hm ▸ hchar m hlength) hnext
      omega
    have hlast : (front.length : ℤ) + (n - 1) = (m - 1 : ℕ) := by omega
    have hset : setChar (printed front ds expNegative es) (m - 1 : ℕ)
        ((printed front ds expNegative es)[m - 1] + 1)
          = some (printed (front.set (m - 1) ((printed front ds expNegative es)[m - 1] + 1)) ds
              expNegative es) := by
      unfold setChar
      rw [if_pos ⟨Int.natCast_nonneg _, by omega⟩, Int.toNat_natCast]
      unfold printed
      rw [List.set_append_left _ _ (by omega)]
    rw [hlast, hchar (m - 1) (by omega)]
    simp only [Option.bind_eq_bind, Option.bind_some]
    rw [hset, Option.bind_some]
    have hm : m ≤ (front.set (m - 1) ((printed front ds expNegative es)[m - 1] + 1)).length := by
      rw [List.length_set]
      omega
    have hzeros := zeroDigits_before expNegative es hds hm
    rw [List.length_set] at hzeros
    exact ⟨_, hzeros⟩
  · rw [Option.bind_eq_bind, Option.bind_some]
    exact ⟨_, zeroDigits_before _ _ hds (by omega)⟩

/-! ## A place among the digits -/

/-- The digit before the place is bumped; this is also so behind the last digit. -/
theorem roundAt_within {i d : ℕ} {next : UInt8} (hds : ds.length = 16) (hd : ds[i]? = some d)
    (h10 : d < 10)
    (hnext : charAt (printed front ds expNegative es) (front.length + (i + 1)) = some next) :
    roundAt (printed front ds expNegative es) front.length i
      = some (printed front (ds.take i ++ (if 0x35 ≤ next then d + 1 else d) ::
          List.replicate (15 - i) 0) expNegative es) := by
  obtain ⟨hi, hget⟩ := List.getElem?_eq_some_iff.1 hd
  have hshape : ∀ e, front ++ ((ds.take i ++ e :: ds.drop (i + 1)).map digitChar
        ++ exponentText expNegative es)
      = (front ++ (ds.take i).map digitChar) ++ digitChar e ::
          ((ds.drop (i + 1)).map digitChar ++ exponentText expNegative es) := by
    intro e
    simp
  have hprinted : printed front ds expNegative es
      = (front ++ (ds.take i).map digitChar) ++ digitChar d ::
          ((ds.drop (i + 1)).map digitChar ++ exponentText expNegative es) := by
    rw [← hshape d, ← hget, List.cons_getElem_drop_succ, List.take_append_drop]
    rfl
  have hplace : (front.length : ℤ) + i = (front ++ (ds.take i).map digitChar).length := by
    rw [List.length_append, List.length_map, List.length_take]
    push_cast
    omega
  have hbump : digitChar d + 1 = digitChar (d + 1) := by
    rw [← UInt8.toNat_inj, UInt8.toNat_add, toNat_digitChar h10]
    unfold digitChar
    rw [UInt8.toNat_ofNat']
    show (0x30 + d + 1) % 2 ^ 8 = _
    omega
  have hrounded : bump (printed front ds expNegative es) (front.length + i) next
      = some ((front ++ (ds.take i).map digitChar) ++
          digitChar (if 0x35 ≤ next then d + 1 else d) ::
            ((ds.drop (i + 1)).map digitChar ++ exponentText expNegative es)) := by
    unfold bump
    split_ifs
    · rw [hprinted, hplace, charAt_next, Option.bind_eq_bind, Option.bind_some, setChar_next, hbump]
    · rw [hprinted]
  have hcount : (16 - ((i : ℤ) + 1)).toNat = ((ds.drop (i + 1)).map digitChar).length := by
    rw [List.length_map, List.length_drop]
    omega
  have hzero : ((ds.drop (i + 1)).map digitChar).length = 15 - i := by
    rw [List.length_map, List.length_drop]
    omega
  have hafter : (front.length : ℤ) + (i + 1)
      = ((front ++ (ds.take i).map digitChar)
          ++ [digitChar (if 0x35 ≤ next then d + 1 else d)]).length := by
    rw [List.length_append, List.length_singleton]
    push_cast
    omega
  unfold roundAt
  rw [hnext, Option.bind_eq_bind, Option.bind_some, hrounded, Option.bind_eq_bind,
    Option.bind_some, hcount, hafter,
    List.append_cons, zeroDigits_eq, hzero]
  unfold printed
  simp [digitChar]

/-! ## A place behind the digits -/

theorem roundAt_outside {i : ℕ} (hds : ds.length = 16)
    (hi : (exponentText expNegative es).length ≤ i + 1) :
    roundAt (printed front ds expNegative es) front.length (16 + i) = none := by
  have hplace : (front.length : ℤ) + (16 + i + 1) = front.length + 16 + (i + 1 : ℕ) := by
    push_cast
    ring
  unfold roundAt
  rw [hplace, charAt_behind hds, List.getElem?_eq_none hi]
  rfl

/-- A character of the exponent is bumped as a digit is. -/
theorem roundAt_after (front : Text) {i : ℕ} {last next : UInt8} (hds : ds.length = 16)
    (hlast : (exponentText expNegative es)[i]? = some last)
    (hnext : (exponentText expNegative es)[i + 1]? = some next) :
    roundAt (printed front ds expNegative es) front.length (16 + i)
      = some (if 0x35 ≤ next then
          front ++ (ds.map digitChar ++ (exponentText expNegative es).set i (last + 1))
        else printed front ds expNegative es) := by
  have hplace : (front.length : ℤ) + (16 + i + 1) = front.length + 16 + (i + 1 : ℕ) := by
    push_cast
    ring
  have hbefore : (front.length : ℤ) + (16 + i) = front.length + 16 + i := by ring
  have hcount : (16 - (16 + (i : ℤ) + 1)).toNat = 0 := by omega
  obtain ⟨hi, -⟩ := List.getElem?_eq_some_iff.1 hlast
  have hset : setChar (printed front ds expNegative es) (front.length + 16 + i) (last + 1)
      = some (front ++ (ds.map digitChar ++ (exponentText expNegative es).set i (last + 1))) := by
    have hmap : (ds.map digitChar).length = 16 := by rw [List.length_map, hds]
    have hnat : ((front.length : ℤ) + 16 + i).toNat = front.length + (16 + i) := by omega
    have hin : front.length + (16 + i) < (printed front ds expNegative es).length := by
      unfold printed
      rw [List.length_append, List.length_append, hmap]
      omega
    unfold setChar
    rw [hnat, if_pos ⟨by omega, hin⟩]
    unfold printed
    rw [List.set_append_right _ _ (by omega), List.set_append_right _ _ (by omega), hmap,
      Nat.add_sub_cancel_left, Nat.add_sub_cancel_left]
  unfold roundAt
  rw [hplace, charAt_behind hds, hnext, Option.bind_eq_bind, Option.bind_some, hcount, hbefore]
  unfold bump
  split_ifs
  · rw [charAt_behind hds, hlast]
    simp only [Option.bind_eq_bind, Option.bind_some]
    rw [hset]
    rfl
  · rfl

end

end CuteMac.Fpu
