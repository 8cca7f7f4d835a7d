/-
  The replies to ICMP echo requests (`handleLocalIpPacket`).

  * `foldCarries_mod`, `internetChecksum_eq_zero`: one's complement sums by their
    remainder;
  * `internetChecksum_written`: a check sum that is written where zeros stood
    makes the check sum zero;
  * `echoWrites`, `echoReply_eq`: the reply as a list of writes into its buffer;
  * `EchoRequest`, `ProperReply`: what is answered, and how;
  * `reply_proper_iff`: the packets whose replies are proper.
-/
import CuteMac.Modem.Network

namespace CuteMac.Modem

open Slice (mid overwrite)
open SerialIpOverEthernet

/-! ## One's complement sums -/

theorem foldCarries_lt (sum : Nat) : foldCarries sum < 2 ^ 16 := by
  fun_induction foldCarries sum with
  | case1 sum h => exact h
  | case2 sum h ih => exact ih

theorem foldCarries_mod (sum : Nat) : foldCarries sum % 65535 = sum % 65535 := by
  fun_induction foldCarries sum with
  | case1 sum h => rfl
  | case2 sum h ih =>
    rw [ih]
    omega

theorem foldCarries_eq_zero (sum : Nat) : foldCarries sum = 0 ↔ sum = 0 := by
  fun_induction foldCarries sum with
  | case1 sum h => rfl
  | case2 sum h ih =>
    rw [ih]
    omega

/-- The high byte and the low byte of a word. -/
theorem word_be16 {value : Nat} (h : value < 2 ^ 16) :
    (UInt8.ofNat (value >>> 8)).toNat <<< 8 ||| (UInt8.ofNat value).toNat = value := by
  have hlow : value % 256 < 2 ^ 8 := Nat.mod_lt _ (by decide)
  rw [UInt8.toNat_ofNat', UInt8.toNat_ofNat', Nat.shiftRight_eq_div_pow,
    ← Nat.shiftLeft_add_eq_or_of_lt hlow, Nat.shiftLeft_eq]
  omega

theorem word_le (high low : UInt8) : high.toNat <<< 8 ||| low.toNat ≤ 65535 := by
  have hhigh := high.toNat_lt
  have hlow := low.toNat_lt
  rw [← Nat.shiftLeft_add_eq_or_of_lt hlow, Nat.shiftLeft_eq]
  omega

theorem sumWords_le (bytes : List UInt8) : sumWords bytes ≤ 65535 * ((bytes.length + 1) / 2) := by
  fun_induction sumWords bytes with
  | case1 high low bytes ih =>
    have hword := word_le high low
    simp only [List.length_cons]
    omega
  | case2 high =>
    have hhigh := high.toNat_lt
    rw [Nat.shiftLeft_eq]
    simp only [List.length_cons, List.length_nil]
    omega
  | case3 => simp

theorem sumWords_append {a : List UInt8} (b : List UInt8) (h : a.length % 2 = 0) :
    sumWords (a ++ b) = sumWords a + sumWords b := by
  fun_induction sumWords a with
  | case1 high low bytes ih =>
    simp only [List.length_cons] at h
    rw [List.cons_append, List.cons_append, sumWords, ih (by omega), Nat.add_assoc]
  | case2 high => cases h
  | case3 => simp

theorem sumWords_be16 {value : Nat} (h : value < 2 ^ 16) (bytes : List UInt8) :
    sumWords (be16 value ++ bytes) = value + sumWords bytes := by
  rw [be16, List.cons_append, List.cons_append, List.nil_append, sumWords, word_be16 h]

/-- A check sum is zero where the sum is a multiple of 65535, but not zero. -/
theorem internetChecksum_eq_zero {bytes : List UInt8} (h : bytes.length ≤ 2 ^ 16) :
    internetChecksum bytes = 0 ↔ 0 < sumWords bytes ∧ sumWords bytes % 65535 = 0 := by
  have hsum := sumWords_le bytes
  have hmod : sumWords bytes % 2 ^ 32 = sumWords bytes := Nat.mod_eq_of_lt (by omega)
  have hlt := foldCarries_lt (sumWords bytes)
  have hrem := foldCarries_mod (sumWords bytes)
  have hzero := foldCarries_eq_zero (sumWords bytes)
  unfold internetChecksum
  rw [hmod]
  omega

/-- The check sum stands where zeros stood. -/
theorem internetChecksum_written {a b : List UInt8} (ha : a.length % 2 = 0)
    (h : a.length + 2 + b.length ≤ 2 ^ 16) :
    internetChecksum (a ++ be16 (internetChecksum (a ++ [0, 0] ++ b)) ++ b) = 0 := by
  obtain ⟨value, hvalue⟩ : ∃ value, value = internetChecksum (a ++ [0, 0] ++ b) := ⟨_, rfl⟩
  have hsum : sumWords (a ++ [0, 0] ++ b) = sumWords a + sumWords b := by
    rw [List.append_assoc, sumWords_append _ ha, List.cons_append, List.cons_append,
      List.nil_append, sumWords]
    simp
  have hbound := sumWords_le (a ++ [0, 0] ++ b)
  have hlength : (a ++ [0, 0] ++ b).length = a.length + 2 + b.length := by
    simp
    omega
  have hmod : sumWords (a ++ [0, 0] ++ b) % 2 ^ 32 = sumWords a + sumWords b := by
    rw [Nat.mod_eq_of_lt (by omega), hsum]
  have hlt := foldCarries_lt (sumWords a + sumWords b)
  have hrem := foldCarries_mod (sumWords a + sumWords b)
  have hzero := foldCarries_eq_zero (sumWords a + sumWords b)
  have hdef : value = 2 ^ 16 - 1 - foldCarries (sumWords a + sumWords b) := by
    rw [hvalue, internetChecksum, hmod]
  rw [← hvalue, internetChecksum_eq_zero (by simp [be16]; omega), List.append_assoc,
    sumWords_append _ ha, sumWords_be16 (by omega)]
  omega

/-- The same, for a write. -/
theorem internetChecksum_overwrite {bytes : List UInt8} {i : Nat} (hi : i % 2 = 0)
    (h : i + 2 ≤ bytes.length) (hlength : bytes.length ≤ 2 ^ 16) :
    internetChecksum (overwrite bytes i
      (be16 (internetChecksum (overwrite bytes i [0, 0])))) = 0 := by
  have ha : (bytes.take i).length = i := by rw [List.length_take]; omega
  exact internetChecksum_written (by rw [ha]; exact hi)
    (by rw [ha, List.length_drop]; simp; omega)

/-! ## The buffer of a reply -/

/-- A write of some bytes. -/
def put (out : List UInt8) (w : Nat × List UInt8) : List UInt8 := overwrite out w.1 w.2

/-- The writes into the buffer of a reply, which holds the packet. -/
def echoWrites (packet : List UInt8) (headerLength totalLength : Nat) : List (Nat × List UInt8) :=
  let header := [(12, mid packet 16 4), (16, mid packet 12 4), (8, [64]), (10, [0]), (11, [0])]
  let out := header.foldl put (packet.take totalLength)
  let icmp := header ++ [(10, be16 (internetChecksum (out.take headerLength))),
    (headerLength, [0]), (headerLength + 2, [0]), (headerLength + 3, [0])]
  let out := icmp.foldl put (packet.take totalLength)
  icmp ++ [(headerLength + 2, be16 (internetChecksum (out.drop headerLength)))]

/-- Every write ends inside the buffer. -/
def WritesInside (packet : List UInt8) (headerLength totalLength : Nat) : Prop :=
  ∀ w ∈ echoWrites packet headerLength totalLength, w.1 + w.2.length ≤ totalLength

section
variable {packet : List UInt8} {h t : Nat}

theorem writesInside_iff (hh : 20 ≤ h) (hp : h + 8 ≤ packet.length) :
    WritesInside packet h t ↔ h + 4 ≤ t := by
  have h16 : (mid packet 16 4).length = 4 := by rw [Slice.length_mid]; omega
  have h12 : (mid packet 12 4).length = 4 := by rw [Slice.length_mid]; omega
  unfold WritesInside echoWrites
  simp only [List.cons_append, List.nil_append, List.forall_mem_cons, be16, List.length_cons,
    List.length_nil, h16, h12]
  simp
  omega

theorem length_foldl_put {ws : List (Nat × List UInt8)} {out : List UInt8}
    (h : ∀ w ∈ ws, w.1 + w.2.length ≤ out.length) : (ws.foldl put out).length = out.length := by
  induction ws generalizing out with
  | nil => rfl
  | cons w ws ih =>
    have hw : (put out w).length = out.length :=
      Slice.length_overwrite (h w (List.mem_cons_self ..))
    rw [List.foldl_cons, ih (by rw [hw]; exact fun w' hw' => h w' (List.mem_cons_of_mem _ hw')), hw]

/-- The addresses change places, and a new packet starts its way. -/
def turned (packet : List UInt8) (t : Nat) : List UInt8 :=
  overwrite (overwrite (overwrite (packet.take t) 12 (mid packet 16 4)) 16 (mid packet 12 4)) 8 [64]

theorem length_turned (hp : 20 ≤ t) (ht : t ≤ packet.length) : (turned packet t).length = t := by
  have h16 : (mid packet 16 4).length = 4 := by rw [Slice.length_mid]; omega
  have h12 : (mid packet 12 4).length = 4 := by rw [Slice.length_mid]; omega
  have h0 : (packet.take t).length = t := by rw [List.length_take]; omega
  unfold turned
  have h1 : (overwrite (packet.take t) 12 (mid packet 16 4)).length = t := by
    rw [Slice.length_overwrite (by omega), h0]
  have h2 : (overwrite (overwrite (packet.take t) 12 (mid packet 16 4)) 16
      (mid packet 12 4)).length = t := by
    rw [Slice.length_overwrite (by omega), h1]
  rw [Slice.length_overwrite (by rw [h2]; simp; omega), h2]

/-- The check sum of the header is new. -/
def checked (packet : List UInt8) (h t : Nat) : List UInt8 :=
  overwrite (turned packet t) 10
    (be16 (internetChecksum ((overwrite (turned packet t) 10 [0, 0]).take h)))

/-- The message is a reply without a check sum. -/
def answered (packet : List UInt8) (h t : Nat) : List UInt8 :=
  overwrite (overwrite (checked packet h t) h [0]) (h + 2) [0, 0]

theorem length_checked (hp : 20 ≤ t) (ht : t ≤ packet.length) :
    (checked packet h t).length = t := by
  have hl := length_turned hp ht
  unfold checked
  rw [Slice.length_overwrite (by rw [hl]; simp [be16]; omega), hl]

theorem length_answered (hh : 20 ≤ h) (h4 : h + 4 ≤ t) (ht : t ≤ packet.length) :
    (answered packet h t).length = t := by
  have hl : (checked packet h t).length = t := length_checked (by omega) ht
  have hl' : (overwrite (checked packet h t) h [0]).length = t := by
    rw [Slice.length_overwrite (by rw [hl]; simp; omega), hl]
  unfold answered
  rw [Slice.length_overwrite (by rw [hl']; simp; omega), hl']

theorem set_zeros {out : List UInt8} {i : Nat} (h : i + 2 ≤ out.length) :
    (out.set i 0).set (i + 1) 0 = overwrite out i [0, 0] := by
  have hinner : out.set i 0 = overwrite out i [0] := Slice.set_eq_overwrite (by omega)
  rw [hinner, Slice.set_eq_overwrite (by rw [Slice.length_overwrite (by simp; omega)]; omega)]
  exact Slice.overwrite_append [0] [0] (by simp; omega)

/-- A reply, write by write. -/
theorem echoReply_eq (hh : 20 ≤ h) (h4 : h + 4 ≤ t) (ht : t ≤ packet.length) :
    echoReply packet h t = overwrite (answered packet h t) (h + 2)
      (be16 (internetChecksum ((answered packet h t).drop h))) := by
  have hturned : (turned packet t).length = t := length_turned (by omega) ht
  have hchecked : (checked packet h t).length = t := length_checked (by omega) ht
  have hanswered := length_answered hh h4 ht
  have h0 : (packet.take t).length = t := by rw [List.length_take]; omega
  have h16 : (mid packet 16 4).length = 4 := by rw [Slice.length_mid]; omega
  have h12 : (mid packet 12 4).length = 4 := by rw [Slice.length_mid]; omega
  have hswap : (overwrite (overwrite (packet.take t) 12 (mid packet 16 4)) 16
      (mid packet 12 4)).length = t := by
    rw [Slice.length_overwrite, Slice.length_overwrite (by omega), h0]
    rw [Slice.length_overwrite (by omega)]
    omega
  have hfirst : (overwrite (overwrite (packet.take t) 12 (mid packet 16 4)) 16
      (mid packet 12 4)).set 8 64 = turned packet t := Slice.set_eq_overwrite (by omega)
  have hheader : ∀ value, overwrite (overwrite (turned packet t) 10 [0, 0]) 10 (be16 value) =
      overwrite (turned packet t) 10 (be16 value) :=
    fun value => Slice.overwrite_overwrite (by rw [hturned]; simp; omega) rfl
  have hzeros : ((turned packet t).set 10 0).set 11 0 = overwrite (turned packet t) 10 [0, 0] :=
    set_zeros (by omega)
  have hmessage : (((checked packet h t).set h 0).set (h + 2) 0).set (h + 3) 0 =
      answered packet h t := by
    rw [set_zeros (by rw [List.length_set]; omega), Slice.set_eq_overwrite (by omega)]
    rfl
  unfold echoReply
  dsimp only
  rw [hfirst, hzeros, hheader]
  show (overwrite ((((checked packet h t).set h 0).set (h + 2) 0).set (h + 3) 0) _ _).take t = _
  rw [show overwrite (turned packet t) 10
    (be16 (internetChecksum ((overwrite (turned packet t) 10 [0, 0]).take h))) =
      checked packet h t from rfl, hmessage]
  refine List.take_of_length_le (Nat.le_of_eq ?_)
  rw [Slice.length_overwrite (by rw [hanswered]; simp [be16]; omega), hanswered]

theorem foldl_echoWrites (hh : 20 ≤ h) (h4 : h + 4 ≤ t) (ht : t ≤ packet.length) :
    (echoWrites packet h t).foldl put (packet.take t) = echoReply packet h t := by
  have hturned : (turned packet t).length = t := length_turned (by omega) ht
  have hchecked : (checked packet h t).length = t := length_checked (by omega) ht
  have hzeros : overwrite (overwrite (turned packet t) 10 [0]) 11 [0] =
      overwrite (turned packet t) 10 [0, 0] :=
    Slice.overwrite_append [0] [0] (by simp; omega)
  have hheader : ∀ value, overwrite (overwrite (turned packet t) 10 [0, 0]) 10 (be16 value) =
      overwrite (turned packet t) 10 (be16 value) :=
    fun value => Slice.overwrite_overwrite (by rw [hturned]; simp; omega) rfl
  have hmessage : overwrite (overwrite (overwrite (checked packet h t) h [0]) (h + 2) [0]) (h + 3)
      [0] = answered packet h t :=
    Slice.overwrite_append [0] [0]
      (by rw [Slice.length_overwrite (by simp; omega)]; simp; omega)
  rw [echoReply_eq hh h4 ht]
  unfold echoWrites
  simp only [List.foldl_append, List.foldl_cons, List.foldl_nil, put]
  rw [show overwrite (overwrite (overwrite (packet.take t) 12 (mid packet 16 4)) 16
    (mid packet 12 4)) 8 [64] = turned packet t from rfl, hzeros, hheader]
  rw [show overwrite (turned packet t) 10
    (be16 (internetChecksum ((overwrite (turned packet t) 10 [0, 0]).take h))) =
      checked packet h t from rfl, hmessage]

/-- The header of a reply. -/
theorem take_echoReply (hh : 20 ≤ h) (h4 : h + 4 ≤ t) (ht : t ≤ packet.length) :
    (echoReply packet h t).take h = overwrite ((turned packet t).take h) 10
      (be16 (internetChecksum (overwrite ((turned packet t).take h) 10 [0, 0]))) := by
  have hturned : (turned packet t).length = t := length_turned (by omega) ht
  have hchecked : (checked packet h t).length = t := length_checked (by omega) ht
  have hanswered := length_answered hh h4 ht
  have hfirst : (overwrite (checked packet h t) h [0]).length = t := by
    rw [Slice.length_overwrite (by rw [hchecked]; simp; omega), hchecked]
  rw [echoReply_eq hh h4 ht,
    Slice.take_overwrite_of_le (by rw [hanswered]; simp [be16]; omega) (by omega), answered,
    Slice.take_overwrite_of_le (by rw [hfirst]; simp; omega) (by omega),
    Slice.take_overwrite_of_le (by rw [hchecked]; simp; omega) (by omega), checked,
    Slice.take_overwrite (by rw [hturned]; simp [be16]; omega) (by simp [be16]; omega),
    Slice.take_overwrite (by rw [hturned]; simp; omega) (by simp; omega)]

/-- The message of a reply. -/
theorem drop_echoReply (hh : 20 ≤ h) (h4 : h + 4 ≤ t) (ht : t ≤ packet.length) :
    (echoReply packet h t).drop h =
      overwrite (overwrite ((packet.take t).drop h) 0 [0]) 2
        (be16 (internetChecksum (overwrite (overwrite ((packet.take t).drop h) 0 [0]) 2 [0, 0]))) := by
  have hturned : (turned packet t).length = t := length_turned (by omega) ht
  have hchecked : (checked packet h t).length = t := length_checked (by omega) ht
  have hanswered := length_answered hh h4 ht
  have hfirst : (overwrite (checked packet h t) h [0]).length = t := by
    rw [Slice.length_overwrite (by rw [hchecked]; simp; omega), hchecked]
  have h0 : (packet.take t).length = t := by rw [List.length_take]; omega
  have h16 : (mid packet 16 4).length = 4 := by rw [Slice.length_mid]; omega
  have h12 : (mid packet 12 4).length = 4 := by rw [Slice.length_mid]; omega
  have hswap : (overwrite (packet.take t) 12 (mid packet 16 4)).length = t := by
    rw [Slice.length_overwrite (by omega), h0]
  have hturn : (turned packet t).drop h = (packet.take t).drop h := by
    unfold turned
    rw [Slice.drop_overwrite_of_le (by rw [Slice.length_overwrite (by omega)]; simp; omega)
        (by simp; omega),
      Slice.drop_overwrite_of_le (by omega) (by omega),
      Slice.drop_overwrite_of_le (by omega) (by omega)]
  have hdrop : (answered packet h t).drop h =
      overwrite (overwrite ((packet.take t).drop h) 0 [0]) 2 [0, 0] := by
    rw [answered, Slice.drop_overwrite (by rw [hfirst]; simp; omega) (by omega),
      Slice.drop_overwrite (by rw [hchecked]; simp; omega) (by omega), checked,
      Slice.drop_overwrite_of_le (by rw [hturned]; simp [be16]; omega) (by simp [be16]; omega),
      hturn, Nat.sub_self, Nat.add_sub_cancel_left]
  rw [echoReply_eq hh h4 ht, Slice.drop_overwrite (by rw [hanswered]; simp [be16]; omega) (by omega),
    hdrop, Nat.add_sub_cancel_left]
  refine Slice.overwrite_overwrite ?_ rfl
  rw [Slice.length_overwrite (by simp; omega)]
  simp
  omega

/-- What is left of the header. -/
theorem mid_echoReply {i n : Nat} (hh : 20 ≤ h) (h4 : h + 4 ≤ t) (ht : t ≤ packet.length)
    (hi : i + n ≤ h) (hsum : i + n ≤ 10 ∨ 12 ≤ i) :
    mid (echoReply packet h t) i n = mid (turned packet t) i n := by
  have hturned : (turned packet t).length = t := length_turned (by omega) ht
  have hchecked : (checked packet h t).length = t := length_checked (by omega) ht
  have hanswered := length_answered hh h4 ht
  have hfirst : (overwrite (checked packet h t) h [0]).length = t := by
    rw [Slice.length_overwrite (by rw [hchecked]; simp; omega), hchecked]
  rw [echoReply_eq hh h4 ht,
    Slice.mid_overwrite_of_disjoint (by rw [hanswered]; simp [be16]; omega) (by omega), answered,
    Slice.mid_overwrite_of_disjoint (by rw [hfirst]; simp; omega) (by omega),
    Slice.mid_overwrite_of_disjoint (by rw [hchecked]; simp; omega) (by omega), checked,
    Slice.mid_overwrite_of_disjoint (by rw [hturned]; simp [be16]; omega) (by simp [be16]; omega)]

/-- The first bytes of a header stay. -/
theorem mid_turned {i n : Nat} (hp : 20 ≤ t) (ht : t ≤ packet.length) (hi : i + n ≤ 8) :
    mid (turned packet t) i n = mid packet i n := by
  have h0 : (packet.take t).length = t := by rw [List.length_take]; omega
  have h16 : (mid packet 16 4).length = 4 := by rw [Slice.length_mid]; omega
  have h12 : (mid packet 12 4).length = 4 := by rw [Slice.length_mid]; omega
  unfold turned
  rw [Slice.mid_overwrite_of_disjoint (by rw [Slice.length_overwrite
      (by rw [Slice.length_overwrite (by omega)]; omega), Slice.length_overwrite (by omega)]; simp; omega)
      (by omega),
    Slice.mid_overwrite_of_disjoint (by rw [Slice.length_overwrite (by omega)]; omega) (by omega),
    Slice.mid_overwrite_of_disjoint (by omega) (by omega)]
  apply List.ext_getElem?
  intro k
  rw [Slice.getElem?_mid, Slice.getElem?_mid]
  split_ifs with hk
  · rw [List.getElem?_take_of_lt (by omega)]
  · rfl

/-- The addresses of a reply. -/
theorem addresses_turned (hp : 20 ≤ t) (ht : t ≤ packet.length) :
    mid (turned packet t) 12 4 = mid packet 16 4 ∧
      mid (turned packet t) 16 4 = mid packet 12 4 := by
  have h0 : (packet.take t).length = t := by rw [List.length_take]; omega
  have h16 : (mid packet 16 4).length = 4 := by rw [Slice.length_mid]; omega
  have h12 : (mid packet 12 4).length = 4 := by rw [Slice.length_mid]; omega
  have hswap : (overwrite (packet.take t) 12 (mid packet 16 4)).length = t := by
    rw [Slice.length_overwrite (by omega), h0]
  have hsource : mid (overwrite (packet.take t) 12 (mid packet 16 4)) 12 4 = mid packet 16 4 := by
    have hmid := @Slice.mid_overwrite _ (packet.take t) (mid packet 16 4) 12 (by omega)
    rwa [h16] at hmid
  have hdestination : mid (overwrite (overwrite (packet.take t) 12 (mid packet 16 4)) 16
      (mid packet 12 4)) 16 4 = mid packet 12 4 := by
    have hmid := @Slice.mid_overwrite _ (overwrite (packet.take t) 12 (mid packet 16 4))
      (mid packet 12 4) 16 (by omega)
    rwa [h12] at hmid
  have hlength : 8 + [(64 : UInt8)].length ≤ (overwrite (overwrite (packet.take t) 12
      (mid packet 16 4)) 16 (mid packet 12 4)).length := by
    rw [Slice.length_overwrite (by omega), hswap]
    simp
    omega
  unfold turned
  refine ⟨?_, ?_⟩
  · rw [Slice.mid_overwrite_of_disjoint hlength (by simp),
      Slice.mid_overwrite_of_disjoint (by omega) (by omega), hsource]
  · rw [Slice.mid_overwrite_of_disjoint hlength (by simp), hdestination]

end

/-! ## Echo requests -/

def headerLength (ip : List UInt8) : Nat := (byteAt ip 0 &&& 0x0f).toNat * 4

def totalLength (ip : List UInt8) : Nat := readBe16 ip 2

variable {σ : Type}

/-- An ICMP echo request to the gateway's address, with both check sums. -/
structure EchoRequest (n : SerialIpOverEthernet σ) (ip : List UInt8) : Prop where
  version : byteAt ip 0 >>> 4 = 4
  header : 20 ≤ headerLength ip
  long : headerLength ip + 8 ≤ ip.length
  total : headerLength ip ≤ totalLength ip
  complete : totalLength ip ≤ ip.length
  destination : mid ip 16 4 = n.localIp.val
  protocol : byteAt ip 9 = 1
  headerChecksum : internetChecksum (ip.take (headerLength ip)) = 0
  type : byteAt ip (headerLength ip) = 8
  messageChecksum :
    internetChecksum (mid ip (headerLength ip) (totalLength ip - headerLength ip)) = 0

/-- Echo requests alone are answered. -/
theorem mem_handleLocalIpPacket (n : SerialIpOverEthernet σ) (ip reply : List UInt8) :
    (∃ replies, n.handleLocalIpPacket ip = some replies ∧ reply ∈ replies) ↔
      EchoRequest n ip ∧ reply = echoReply ip (headerLength ip) (totalLength ip) := by
  constructor
  · rintro ⟨replies, hreplies, hmem⟩
    unfold handleLocalIpPacket at hreplies
    dsimp only at hreplies
    split_ifs at hreplies with hheader htotal hlocal hprotocol hsum hmessage
    · obtain rfl := Option.some.inj hreplies
      cases hmem
    · obtain rfl := Option.some.inj hreplies
      cases hmem
    · obtain rfl := Option.some.inj hreplies
      cases hmem
    · obtain rfl := Option.some.inj hreplies
      rw [not_or, not_or, not_not, Nat.not_lt, Nat.not_lt] at hheader
      rw [not_or, Nat.not_lt, Nat.not_lt] at htotal
      rw [not_or, not_not, not_not] at hmessage
      exact ⟨⟨hheader.1, hheader.2.1, hheader.2.2, htotal.1, htotal.2, not_not.1 hlocal,
        not_not.1 hprotocol, not_not.1 hsum, hmessage.1, hmessage.2⟩, List.mem_singleton.1 hmem⟩
  · rintro ⟨h, rfl⟩
    refine ⟨[echoReply ip (headerLength ip) (totalLength ip)], ?_, List.mem_singleton_self _⟩
    have hsum : ¬ internetChecksum (ip.take ((byteAt ip 0 &&& 0x0f).toNat * 4)) ≠ 0 :=
      not_not.2 h.headerChecksum
    unfold handleLocalIpPacket
    dsimp only
    rw [if_neg, if_neg, if_neg (not_not.2 h.destination), if_neg (not_not.2 h.protocol),
      if_neg hsum, if_neg]
    · rfl
    · rw [not_or, not_not, not_not]
      exact ⟨h.type, h.messageChecksum⟩
    · rw [not_or, Nat.not_lt, Nat.not_lt]
      exact ⟨h.total, h.complete⟩
    · rw [not_or, not_or, not_not, Nat.not_lt, Nat.not_lt]
      exact ⟨h.version, h.header, h.long⟩

/-- A reply to a request whose message has a whole header, built inside its buffer. -/
structure ProperReply (n : SerialIpOverEthernet σ) (ip reply : List UInt8) : Prop where
  request : EchoRequest n ip
  message : headerLength ip + 8 ≤ totalLength ip
  inside : WritesInside ip (headerLength ip) (totalLength ip)
  length : reply.length = totalLength ip
  start : mid reply 0 8 = mid ip 0 8
  source : mid reply 12 4 = mid ip 16 4
  destination : mid reply 16 4 = mid ip 12 4
  headerChecksum : internetChecksum (reply.take (headerLength ip)) = 0
  type : byteAt reply (headerLength ip) = 0
  messageChecksum : internetChecksum (reply.drop (headerLength ip)) = 0
  rest : reply.drop (headerLength ip + 4) = (ip.take (totalLength ip)).drop (headerLength ip + 4)

/-- Every reply to a packet is proper. -/
def RepliesProperly (n : SerialIpOverEthernet σ) (ip : List UInt8) : Prop :=
  ∀ replies, n.handleLocalIpPacket ip = some replies → ∀ reply ∈ replies, ProperReply n ip reply

theorem totalLength_lt (ip : List UInt8) : totalLength ip < 2 ^ 16 :=
  Nat.lt_succ_of_le (word_le _ _)

theorem headerLength_even (ip : List UInt8) : headerLength ip % 2 = 0 := by
  unfold headerLength
  omega

theorem EchoRequest.proper {n : SerialIpOverEthernet σ} {ip : List UInt8} (h : EchoRequest n ip)
    (h8 : headerLength ip + 8 ≤ totalLength ip) :
    ProperReply n ip (echoReply ip (headerLength ip) (totalLength ip)) := by
  have hh := h.header
  have ht := h.complete
  have hlt := totalLength_lt ip
  have h20 : 20 ≤ totalLength ip := by omega
  have h4 : headerLength ip + 4 ≤ totalLength ip := by omega
  have hturned : (turned ip (totalLength ip)).length = totalLength ip := length_turned h20 ht
  have hanswered := length_answered hh h4 ht
  have hdrop := drop_echoReply hh h4 ht
  obtain ⟨hsource, hdestination⟩ := addresses_turned h20 ht
  have hmessage : ((ip.take (totalLength ip)).drop (headerLength ip)).length =
      totalLength ip - headerLength ip := by
    rw [List.length_drop, List.length_take, Nat.min_eq_left ht]
  have htyped : (overwrite ((ip.take (totalLength ip)).drop (headerLength ip)) 0 [0]).length =
      totalLength ip - headerLength ip := by
    rw [Slice.length_overwrite (by rw [hmessage]; simp; omega), hmessage]
  refine
    { request := h
      message := h8
      inside := (writesInside_iff hh h.long).2 h4
      length := ?_
      start := ?_
      source := ?_
      destination := ?_
      headerChecksum := ?_
      type := ?_
      messageChecksum := ?_
      rest := ?_ }
  · rw [echoReply_eq hh h4 ht, Slice.length_overwrite (by rw [hanswered]; simp [be16]; omega),
      hanswered]
  · rw [mid_echoReply hh h4 ht (by omega) (.inl (by omega)), mid_turned h20 ht (by omega)]
  · rw [mid_echoReply hh h4 ht (by omega) (.inr (by omega)), hsource]
  · rw [mid_echoReply hh h4 ht (by omega) (.inr (by omega)), hdestination]
  · rw [take_echoReply hh h4 ht]
    refine internetChecksum_overwrite (by decide) ?_ ?_
    · rw [List.length_take, hturned]
      omega
    · rw [List.length_take, hturned]
      omega
  · have hget : byteAt (echoReply ip (headerLength ip) (totalLength ip)) (headerLength ip) =
        byteAt ((echoReply ip (headerLength ip) (totalLength ip)).drop (headerLength ip)) 0 := by
      rw [byteAt, byteAt, List.getD_eq_getElem?_getD, List.getD_eq_getElem?_getD,
        List.getElem?_drop, Nat.add_zero]
    rw [hget, hdrop, byteAt, List.getD_eq_getElem?_getD,
      Slice.getElem?_overwrite (by rw [htyped]; simp [be16]; omega), if_neg (by omega),
      Slice.getElem?_overwrite (by rw [hmessage]; simp; omega), if_pos (by simp)]
    rfl
  · rw [hdrop]
    refine internetChecksum_overwrite (by decide) ?_ ?_
    · rw [htyped]
      omega
    · rw [htyped]
      omega
  · rw [← List.drop_drop, hdrop, ← List.drop_drop,
      Slice.drop_overwrite_of_le (by rw [htyped]; simp [be16]; omega) (by simp [be16]),
      Slice.drop_overwrite_of_le (by rw [hmessage]; simp; omega) (by simp)]

/-- The replies are proper where the message of a request has a whole header. -/
theorem reply_proper_iff (n : SerialIpOverEthernet σ) (ip : List UInt8) :
    RepliesProperly n ip ↔ (EchoRequest n ip → headerLength ip + 8 ≤ totalLength ip) := by
  constructor
  · intro h hrequest
    obtain ⟨replies, hreplies, hmem⟩ := (mem_handleLocalIpPacket n ip _).2 ⟨hrequest, rfl⟩
    exact (h replies hreplies _ hmem).message
  · intro h replies hreplies reply hmem
    obtain ⟨hrequest, rfl⟩ := (mem_handleLocalIpPacket n ip reply).1 ⟨replies, hreplies, hmem⟩
    exact hrequest.proper (h hrequest)

/-- A request with a message of three bytes, and what fills the line. -/
def shortRequest : List UInt8 :=
  [0x45, 0, 0, 23, 0, 0, 0, 0, 64, 1, 0x22, 0xc3, 172, 16, 0, 2, 172, 16, 0, 1,
    8, 0xff, 0xf7, 0, 0, 0, 0, 0]

/-- The check sum of its reply is written behind the buffer. -/
theorem shortRequest_reply : ¬ RepliesProperly fresh shortRequest := by
  have hrequest : EchoRequest fresh shortRequest := by
    refine ⟨by decide, by decide, by decide, by decide, by decide, by decide, by decide, ?_,
      by decide, ?_⟩
    · rw [internetChecksum_eq_zero (by decide)]
      decide
    · rw [internetChecksum_eq_zero (by decide)]
      decide
  intro h
  obtain ⟨replies, hreplies, hmem⟩ := (mem_handleLocalIpPacket fresh shortRequest _).2 ⟨hrequest, rfl⟩
  have hinside := (writesInside_iff (by decide) (by decide)).1 (h replies hreplies _ hmem).inside
  exact absurd hinside (by decide)

end CuteMac.Modem
