/-
  The negotiation of addresses (`PppConnection::handleIpcp`).

  * `options`: the options of a request and what is left behind the last whole
    one, as a parser of its own;
  * `walkOptions_eq`: the loop of `handleIpcp` computed from the options;
  * `Sound`: what the answer to a request must be;
  * `sound_iff`: the requests whose answer is sound.

  The loop stops early on a malformed option and looks only at address options
  of the right length; what it passes over is acknowledged.
-/
import Mathlib.Data.List.Basic
import CuteMac.Modem.Ppp

namespace CuteMac.Modem

open SerialIpOverEthernet (byteAt readBe16 be16)

/-! ## Options -/

/-- An option; its length byte counts the two bytes before the data. -/
structure IpcpOption where
  type : UInt8
  data : List UInt8
  short : data.length < 254

namespace IpcpOption

def encode (o : IpcpOption) : List UInt8 :=
  o.type :: UInt8.ofNat (o.data.length + 2) :: o.data

/-- An IP-address or name-server option. -/
def IsAddress (o : IpcpOption) : Prop := o.type = 3 ∨ o.type = 129 ∨ o.type = 131

instance (o : IpcpOption) : Decidable o.IsAddress := inferInstanceAs (Decidable (_ ∨ _))

variable (wanted : UInt8 → Ipv4Address)

/-- An address option that does not carry the assigned address. -/
def Mismatch (o : IpcpOption) : Prop := o.IsAddress ∧ o.data ≠ (wanted o.type).val

instance (o : IpcpOption) : Decidable (o.Mismatch wanted) := inferInstanceAs (Decidable (_ ∧ _))

/-- The option with the assigned address. -/
def assigned (o : IpcpOption) : IpcpOption :=
  ⟨o.type, (wanted o.type).val, by rw [(wanted o.type).property]; decide⟩

/-- The option as the guest sends it again. -/
def substitute (o : IpcpOption) : IpcpOption :=
  if o.Mismatch wanted then o.assigned wanted else o

/-- What the loop of `handleIpcp` refuses: a mismatch of the right length. -/
def Naked (o : IpcpOption) : Prop := o.Mismatch wanted ∧ o.data.length = 4

instance (o : IpcpOption) : Decidable (o.Naked wanted) := inferInstanceAs (Decidable (_ ∧ _))

end IpcpOption

theorem length_data_lt (optionLength : UInt8) (rest : List UInt8) :
    (rest.take (optionLength.toNat - 2)).length < 254 := by
  have := optionLength.toNat_lt
  rw [List.length_take]
  omega

/-- The options at the front of some bytes, and the bytes behind them. -/
def options : List UInt8 → List IpcpOption × List UInt8
  | type :: optionLength :: rest =>
    if h : optionLength.toNat < 2 ∨ rest.length + 2 < optionLength.toNat then
      ([], type :: optionLength :: rest)
    else
      let (more, left) := options (rest.drop (optionLength.toNat - 2))
      (⟨type, rest.take (optionLength.toNat - 2), length_data_lt optionLength rest⟩ :: more, left)
  | bytes => ([], bytes)
termination_by bytes => bytes.length
decreasing_by simp only [List.length_drop, List.length_cons]; omega

/-- No whole option in front. -/
def Stuck (bytes : List UInt8) : Prop :=
  ∀ type optionLength rest, bytes = type :: optionLength :: rest →
    optionLength.toNat < 2 ∨ rest.length + 2 < optionLength.toNat

/-- Bytes are read option by option. -/
theorem options_induction {P : List UInt8 → Prop} (stuck : ∀ bytes, Stuck bytes → P bytes)
    (cons : ∀ (o : IpcpOption) rest, P rest → P (o.encode ++ rest)) : ∀ bytes, P bytes
  | [] => stuck _ (by rintro _ _ _ ⟨⟩)
  | [_] => stuck _ (by rintro _ _ _ ⟨⟩)
  | type :: optionLength :: rest => by
    by_cases h : optionLength.toNat < 2 ∨ rest.length + 2 < optionLength.toNat
    · refine stuck _ ?_
      rintro _ _ _ ⟨⟩
      exact h
    · have hlt := optionLength.toNat_lt
      have hlen : (rest.take (optionLength.toNat - 2)).length = optionLength.toNat - 2 := by
        rw [List.length_take]
        omega
      have heq : type :: optionLength :: rest =
          IpcpOption.encode ⟨type, rest.take (optionLength.toNat - 2), by omega⟩ ++
            rest.drop (optionLength.toNat - 2) := by
        show _ = type :: UInt8.ofNat ((rest.take (optionLength.toNat - 2)).length + 2) ::
          (rest.take (optionLength.toNat - 2) ++ rest.drop (optionLength.toNat - 2))
        rw [hlen, List.take_append_drop,
          show optionLength.toNat - 2 + 2 = optionLength.toNat by omega, UInt8.ofNat_toNat]
      rw [heq]
      exact cons _ _ (options_induction stuck cons _)
termination_by bytes => bytes.length
decreasing_by simp only [List.length_drop, List.length_cons]; omega

theorem options_stuck {bytes : List UInt8} (h : Stuck bytes) : options bytes = ([], bytes) := by
  rw [options.eq_def]
  split
  · rw [dif_pos (h _ _ _ rfl)]
  · rfl

theorem IpcpOption.toNat_length (o : IpcpOption) :
    (UInt8.ofNat (o.data.length + 2)).toNat = o.data.length + 2 := by
  have := o.short
  rw [UInt8.toNat_ofNat']
  omega

/-- One option in front of some bytes. -/
theorem options_cons (o : IpcpOption) (bytes : List UInt8) :
    options (o.encode ++ bytes) = (o :: (options bytes).1, (options bytes).2) := by
  rw [IpcpOption.encode, List.cons_append, List.cons_append, options, dif_neg]
  · simp only [o.toNat_length, Nat.add_sub_cancel, List.take_left, List.drop_left]
  · rw [o.toNat_length, List.length_append]
    omega

theorem options_flatMap (os : List IpcpOption) (bytes : List UInt8) :
    options (os.flatMap IpcpOption.encode ++ bytes) =
      (os ++ (options bytes).1, (options bytes).2) := by
  induction os with
  | nil => rfl
  | cons o os ih => rw [List.flatMap_cons, List.append_assoc, options_cons, ih]; rfl

/-- The bytes are the options and what is left, in which there is no option. -/
theorem options_spec (bytes : List UInt8) :
    bytes = (options bytes).1.flatMap IpcpOption.encode ++ (options bytes).2 ∧
      options (options bytes).2 = ([], (options bytes).2) := by
  induction bytes using options_induction with
  | stuck bytes h =>
    rw [options_stuck h]
    exact ⟨rfl, options_stuck h⟩
  | cons o rest ih =>
    rw [options_cons]
    refine ⟨?_, ih.2⟩
    rw [List.flatMap_cons, List.append_assoc, ← ih.1]

/-! ## The loop -/

namespace PppConnection

variable (wanted : UInt8 → Ipv4Address)

theorem walkOptions_stuck {bytes : List UInt8} (h : Stuck bytes) (acc : Bool × List UInt8) :
    walkOptions wanted bytes acc = acc := by
  match bytes, acc, h with
  | [], _, _ => rw [walkOptions]; simp
  | [_], _, _ => rw [walkOptions]; simp
  | type :: optionLength :: rest, (needsNak, nak), h =>
    rw [walkOptions, if_pos]
    exact (h _ _ _ rfl).imp_left UInt8.lt_iff_toNat_lt.mpr

theorem walkOptions_cons (o : IpcpOption) (bytes : List UInt8) (needsNak : Bool)
    (nak : List UInt8) :
    walkOptions wanted (o.encode ++ bytes) (needsNak, nak) =
      walkOptions wanted bytes
        (if o.Naked wanted then (true, nak ++ (o.assigned wanted).encode) else (needsNak, nak)) := by
  have hshort := o.short
  have hsix : UInt8.ofNat (o.data.length + 2) = 6 ↔ o.data.length = 4 := by
    rw [← UInt8.toNat_inj, o.toNat_length, show (6 : UInt8).toNat = 6 from rfl]
    omega
  have hok : ¬ (UInt8.ofNat (o.data.length + 2) < 2 ∨
      (o.data ++ bytes).length + 2 < (UInt8.ofNat (o.data.length + 2)).toNat) := by
    rw [UInt8.lt_iff_toNat_lt, o.toNat_length, List.length_append,
      show (2 : UInt8).toNat = 2 from rfl]
    omega
  have hcond : ((o.type = 3 ∨ o.type = 129 ∨ o.type = 131) ∧ UInt8.ofNat (o.data.length + 2) = 6 ∧
      (o.data ++ bytes).take 4 ≠ (wanted o.type).val) ↔ o.Naked wanted := by
    rw [hsix]
    constructor
    · rintro ⟨ht, h4, hne⟩
      rw [List.take_left' h4] at hne
      exact ⟨⟨ht, hne⟩, h4⟩
    · rintro ⟨⟨ht, hne⟩, h4⟩
      rw [List.take_left' h4]
      exact ⟨ht, h4, hne⟩
  rw [IpcpOption.encode, List.cons_append, List.cons_append, walkOptions, if_neg hok]
  simp only [hcond, o.toNat_length, Nat.add_sub_cancel, List.drop_left]
  have hassigned : nak ++ (o.assigned wanted).encode =
      nak ++ [o.type, 6] ++ (wanted o.type).val := by
    rw [IpcpOption.encode, IpcpOption.assigned, (wanted o.type).property, List.append_assoc]
    rfl
  split_ifs
  · rw [hassigned]
  · rfl

/-- The loop refuses if an option is to be refused, and lists these options. -/
theorem walkOptions_eq (bytes : List UInt8) (needsNak : Bool) (nak : List UInt8) :
    walkOptions wanted bytes (needsNak, nak) =
      (needsNak || (options bytes).1.any (·.Naked wanted),
        nak ++ ((options bytes).1.filter (·.Naked wanted)).flatMap
          fun o => (o.assigned wanted).encode) := by
  induction bytes using options_induction generalizing needsNak nak with
  | stuck bytes h =>
    rw [options_stuck h, walkOptions_stuck wanted h]
    simp
  | cons o rest ih =>
    rw [options_cons, walkOptions_cons]
    by_cases ho : o.Naked wanted
    · rw [if_pos ho, ih]
      simp [ho]
    · rw [if_neg ho, ih]
      simp [ho]

/-! ## Soundness -/

variable {σ : Type}

/-- From `s` to `s'` the control packets `cs` were sent. -/
def Answers (s s' : PppConnection σ) (cs : List PppControl) : Prop :=
  s'.controls = s.controls ++ cs ∧
    s'.incoming = s.incoming ++ cs.flatMap fun c => encodePppFrame c.protocol c.payload

/-- An Ack or a Nak. -/
def IsReply (c : PppControl) : Prop := c.protocol = pppProtocolIpcp ∧ (c.code = 2 ∨ c.code = 3)

/-- The request is answered by one Ack or Nak, `reply`. -/
def RepliesWith (s : PppConnection σ) (packet : List UInt8) (reply : PppControl) : Prop :=
  IsReply reply ∧ ∃ own, Answers s (s.handleIpcp packet) (reply :: own) ∧ ∀ c ∈ own, ¬ IsReply c

/-- A Configure-Request. -/
def request (id : UInt8) (options : List UInt8) : List UInt8 :=
  [1, id] ++ be16 (options.length + 4) ++ options

/-- The request's own length field. -/
def lengthField (packet : List UInt8) : Nat := readBe16 packet 2

/-- The options of a request, and what is left behind them. -/
def requestOptions (packet : List UInt8) : List IpcpOption := (options (controlData packet)).1

def requestLeft (packet : List UInt8) : List UInt8 := (options (controlData packet)).2

/-- The request with the assigned values in the place of those that do not match. -/
def corrected (wanted : UInt8 → Ipv4Address) (id : UInt8) (packet : List UInt8) : List UInt8 :=
  request id (((requestOptions packet).map (·.substitute wanted)).flatMap IpcpOption.encode ++
    requestLeft packet)

/-- A sound answer to a Configure-Request. -/
structure Sound (s : PppConnection σ) (packet : List UInt8) : Prop where
  discarded : lengthField packet < 4 → s.handleIpcp packet = s
  answered : 4 ≤ lengthField packet →
    ∃ reply, s.RepliesWith packet reply ∧ reply.id = byteAt packet 1 ∧
      (reply.code = 2 → requestLeft packet = [] ∧
        ∀ o ∈ requestOptions packet, o.IsAddress → o.data = (s.wanted o.type).val) ∧
      (reply.code = 3 →
        reply.data = ((requestOptions packet).filter (·.Mismatch s.wanted)).flatMap
          (fun o => (o.assigned s.wanted).encode) ∧
        ∀ (s' : PppConnection σ) (id : UInt8), s'.wanted = s.wanted →
          ∃ ack, s'.RepliesWith (corrected s.wanted id packet) ack ∧ ack.code = 2 ∧ ack.id = id)

/-- The length field is no lie, no address option has a wrong length, and an option list
    that breaks off has a mismatch before. -/
def Negotiable (s : PppConnection σ) (packet : List UInt8) : Prop :=
  4 ≤ lengthField packet ∧
    (∀ o ∈ requestOptions packet, o.IsAddress → o.data.length = 4) ∧
    (requestLeft packet = [] ∨ ∃ o ∈ requestOptions packet, o.Mismatch s.wanted)

/-! ## The answer -/

/-- What `handleIpcp` replies. -/
def reply (s : PppConnection σ) (packet : List UInt8) : PppControl :=
  if (requestOptions packet).any (·.Naked s.wanted) then
    ⟨pppProtocolIpcp, 3, byteAt packet 1,
      ((requestOptions packet).filter (·.Naked s.wanted)).flatMap
        fun o => (o.assigned s.wanted).encode⟩
  else ⟨pppProtocolIpcp, 2, byteAt packet 1, controlData packet⟩

theorem reply_id (s : PppConnection σ) (packet : List UInt8) :
    (s.reply packet).id = byteAt packet 1 := by
  unfold reply
  split_ifs <;> rfl

theorem reply_naked {s : PppConnection σ} {packet : List UInt8}
    (h : ∃ o ∈ requestOptions packet, o.Naked s.wanted) :
    s.reply packet = ⟨pppProtocolIpcp, 3, byteAt packet 1,
      ((requestOptions packet).filter (·.Naked s.wanted)).flatMap
        fun o => (o.assigned s.wanted).encode⟩ :=
  if_pos (by simpa using h)

theorem reply_not_naked {s : PppConnection σ} {packet : List UInt8}
    (h : ∀ o ∈ requestOptions packet, ¬ o.Naked s.wanted) :
    s.reply packet = ⟨pppProtocolIpcp, 2, byteAt packet 1, controlData packet⟩ :=
  if_neg (by simpa using h)

theorem acknowledge_answers (s : PppConnection σ) (id : UInt8) (options : List UInt8) :
    ∃ own, Answers s (s.acknowledge id options) (⟨pppProtocolIpcp, 2, id, options⟩ :: own) ∧
      ∀ c ∈ own, ¬ IsReply c := by
  simp only [acknowledge]
  split_ifs
  · exact ⟨[], ⟨rfl, by simp [sendPppControl]⟩, by simp⟩
  · refine ⟨[⟨pppProtocolIpcp, 1, s.nextId + 1, [3, 6] ++ s.network.localIp.val⟩], ?_, ?_⟩
    · exact ⟨by simp [sendNext, sendPppControl], by simp [sendNext, sendPppControl]⟩
    · intro c hc
      rw [List.mem_singleton.mp hc]
      rintro ⟨-, h | h⟩
      · exact absurd (show (1 : UInt8) = 2 from h) (by decide)
      · exact absurd (show (1 : UInt8) = 3 from h) (by decide)

theorem repliesWith_reply (s : PppConnection σ) {packet : List UInt8} (h4 : 4 ≤ packet.length)
    (hcode : byteAt packet 0 = 1) : s.RepliesWith packet (s.reply packet) := by
  have hwalk := walkOptions_eq s.wanted (controlData packet) false []
  simp only [Bool.false_or, List.nil_append] at hwalk
  unfold RepliesWith
  simp only [handleIpcp, hwalk]
  rw [if_neg (by omega), if_neg (by simp [hcode]), reply, requestOptions]
  split_ifs
  · exact ⟨⟨rfl, Or.inr rfl⟩, [], ⟨rfl, by simp [sendPppControl]⟩, by simp⟩
  · exact ⟨⟨rfl, Or.inl rfl⟩, s.acknowledge_answers _ _⟩

/-- There is only one reply. -/
theorem RepliesWith.unique {s : PppConnection σ} {packet : List UInt8} {c c' : PppControl}
    (h : s.RepliesWith packet c) (h' : s.RepliesWith packet c') : c = c' := by
  obtain ⟨-, own, ⟨hc, -⟩, -⟩ := h
  obtain ⟨-, own', ⟨hc', -⟩, -⟩ := h'
  exact (List.cons.inj (List.append_cancel_left (hc.symm.trans hc'))).1

/-! ## The corrected request -/

theorem readBe16_lt (bytes : List UInt8) (i : Nat) : readBe16 bytes i < 2 ^ 16 := by
  have hhigh := (byteAt bytes i).toNat_lt
  have hlow := (byteAt bytes (i + 1)).toNat_lt
  rw [readBe16, ← Nat.shiftLeft_add_eq_or_of_lt hlow, Nat.shiftLeft_eq]
  omega

theorem controlData_request (id : UInt8) {options : List UInt8} (h : options.length + 4 < 2 ^ 16) :
    controlData (request id options) = options := by
  have hlen : (request id options).length = options.length + 4 := by
    simp [request, be16]
  have hfield : readBe16 (request id options) 2 = options.length + 4 := by
    show (UInt8.ofNat ((options.length + 4) >>> 8)).toNat <<< 8 |||
      (UInt8.ofNat (options.length + 4)).toNat = _
    rw [← Nat.shiftLeft_add_eq_or_of_lt (UInt8.toNat_lt _), UInt8.toNat_ofNat', UInt8.toNat_ofNat',
      Nat.shiftRight_eq_div_pow, Nat.shiftLeft_eq]
    omega
  simp only [controlData]
  rw [hfield, hlen, Nat.min_self, if_neg (by omega), Nat.add_sub_cancel]
  exact List.take_length

theorem length_controlData {packet : List UInt8} (h : 4 ≤ lengthField packet) (h4 : 4 ≤ packet.length) :
    (controlData packet).length + 4 < 2 ^ 16 := by
  have hlt := readBe16_lt packet 2
  simp only [lengthField] at h
  simp only [controlData]
  rw [if_neg (by omega), List.length_take, List.length_drop]
  omega

theorem length_encode_substitute {o : IpcpOption} (h : o.IsAddress → o.data.length = 4) :
    (o.substitute wanted).encode.length = o.encode.length := by
  unfold IpcpOption.substitute
  split_ifs with hm
  · simp only [IpcpOption.encode, IpcpOption.assigned, List.length_cons, h hm.1,
      (wanted o.type).property]
  · rfl

theorem not_naked_substitute (o : IpcpOption) : ¬ (o.substitute wanted).Naked wanted := by
  unfold IpcpOption.substitute
  split_ifs with hm
  · exact fun h => h.1.2 rfl
  · exact fun h => hm h.1

theorem length_flatMap_substitute {os : List IpcpOption}
    (h : ∀ o ∈ os, o.IsAddress → o.data.length = 4) :
    ((os.map (·.substitute wanted)).flatMap IpcpOption.encode).length =
      (os.flatMap IpcpOption.encode).length := by
  induction os with
  | nil => rfl
  | cons o os ih =>
    obtain ⟨ho, hos⟩ := List.forall_mem_cons.mp h
    rw [List.map_cons, List.flatMap_cons, List.flatMap_cons, List.length_append,
      List.length_append, length_encode_substitute wanted ho, ih hos]

/-- The options of the corrected request are the corrected options. -/
theorem requestOptions_corrected {packet : List UInt8} (id : UInt8) (h4 : 4 ≤ packet.length)
    (hfield : 4 ≤ lengthField packet)
    (hlen : ∀ o ∈ requestOptions packet, o.IsAddress → o.data.length = 4) :
    requestOptions (corrected wanted id packet) =
      (requestOptions packet).map (·.substitute wanted) := by
  obtain ⟨heq, hleft⟩ := options_spec (controlData packet)
  have hsum := length_controlData hfield h4
  rw [heq, List.length_append] at hsum
  rw [requestOptions, corrected, controlData_request, options_flatMap]
  · rw [requestLeft, hleft, List.append_nil]
  · rw [List.length_append, length_flatMap_substitute wanted hlen]
    exact hsum

/-! ## The requests with a sound answer -/

/-- A list of refused options has six bytes for each. -/
theorem length_flatMap_assigned (os : List IpcpOption) :
    (os.flatMap fun o => (o.assigned wanted).encode).length = 6 * os.length := by
  induction os with
  | nil => rfl
  | cons o os ih =>
    have hsix : (o.assigned wanted).encode.length = 6 := by
      simp only [IpcpOption.encode, IpcpOption.assigned, List.length_cons,
        (wanted o.type).property]
    rw [List.flatMap_cons, List.length_append, ih, hsix, List.length_cons]
    omega

theorem sound_of_negotiable {s : PppConnection σ} {packet : List UInt8} (h4 : 4 ≤ packet.length)
    (hcode : byteAt packet 0 = 1) (h : s.Negotiable packet) : s.Sound packet := by
  obtain ⟨hfield, hlen, hleft⟩ := h
  have hnaked : ∀ o ∈ requestOptions packet, o.Naked s.wanted ↔ o.Mismatch s.wanted :=
    fun o ho => ⟨And.left, fun hm => ⟨hm, hlen o ho hm.1⟩⟩
  refine ⟨fun hlt => absurd hlt (by omega), fun _ => ?_⟩
  refine ⟨_, s.repliesWith_reply h4 hcode, s.reply_id packet, ?_⟩
  by_cases hn : ∃ o ∈ requestOptions packet, o.Naked s.wanted
  · rw [reply_naked hn]
    refine ⟨fun h2 => absurd (show (3 : UInt8) = 2 from h2) (by decide), fun _ => ⟨?_, ?_⟩⟩
    · exact congrArg (List.flatMap _) (List.filter_congr fun o ho => by simp [hnaked o ho])
    · intro s' id hs'
      have hsize : 4 ≤ (corrected s.wanted id packet).length := by
        simp [corrected, request, be16]
      have hr := s'.repliesWith_reply hsize rfl
      rw [reply_not_naked] at hr
      · exact ⟨_, hr, rfl, rfl⟩
      · rw [requestOptions_corrected s.wanted id h4 hfield hlen, hs']
        intro o ho
        obtain ⟨o', -, rfl⟩ := List.mem_map.mp ho
        exact not_naked_substitute s.wanted o'
  · have hm : ∀ o ∈ requestOptions packet, ¬ o.Mismatch s.wanted :=
      fun o ho hm => hn ⟨o, ho, (hnaked o ho).mpr hm⟩
    rw [reply_not_naked fun o ho h => hn ⟨o, ho, h⟩]
    refine ⟨fun _ => ⟨?_, ?_⟩, fun h3 => absurd (show (2 : UInt8) = 3 from h3) (by decide)⟩
    · rcases hleft with hleft | ⟨o, ho, h⟩
      · exact hleft
      · exact absurd h (hm o ho)
    · exact fun o ho ha => not_not.mp fun hne => hm o ho ⟨ha, hne⟩

theorem negotiable_of_sound {s : PppConnection σ} {packet : List UInt8} (h4 : 4 ≤ packet.length)
    (hcode : byteAt packet 0 = 1) (h : s.Sound packet) : s.Negotiable packet := by
  have hr := s.repliesWith_reply h4 hcode
  -- the handler always answers, so a packet that must be discarded is not
  have hfield : 4 ≤ lengthField packet := by
    by_contra hlt
    obtain ⟨-, own, ⟨hc, -⟩, -⟩ := hr
    rw [h.discarded (by omega)] at hc
    simp at hc
  obtain ⟨c, hc, -, h2, h3⟩ := h.answered hfield
  obtain rfl := hr.unique hc
  by_cases hn : ∃ o ∈ requestOptions packet, o.Naked s.wanted
  · rw [reply_naked hn] at h3
    obtain ⟨hdata, -⟩ := h3 rfl
    -- the Nak lists as many options as there are mismatches, so each is one it lists
    have hcount := congrArg List.length hdata
    rw [length_flatMap_assigned, length_flatMap_assigned] at hcount
    have hsub : List.Sublist ((requestOptions packet).filter (·.Naked s.wanted))
        ((requestOptions packet).filter (·.Mismatch s.wanted)) :=
      List.monotone_filter_right _ fun o ho => by
        simp only [decide_eq_true_eq] at ho ⊢
        exact ho.1
    have heq := hsub.eq_of_length (by omega)
    have hall : ∀ o ∈ requestOptions packet, o.Mismatch s.wanted → o.Naked s.wanted := by
      intro o ho hm
      have hmem : o ∈ (requestOptions packet).filter (·.Mismatch s.wanted) :=
        List.mem_filter.mpr ⟨ho, by simpa using hm⟩
      rw [← heq] at hmem
      simpa using (List.mem_filter.mp hmem).2
    refine ⟨hfield, ?_, Or.inr ?_⟩
    · intro o ho ha
      by_contra hlen
      have hm : o.Mismatch s.wanted := by
        refine ⟨ha, fun hd => hlen ?_⟩
        rw [hd, (s.wanted o.type).property]
      exact hlen (hall o ho hm).2
    · obtain ⟨o, ho, hm, -⟩ := hn
      exact ⟨o, ho, hm⟩
  · rw [reply_not_naked fun o ho h => hn ⟨o, ho, h⟩] at h2
    obtain ⟨hleft, hdata⟩ := h2 rfl
    refine ⟨hfield, fun o ho ha => ?_, Or.inl hleft⟩
    rw [hdata o ho ha, (s.wanted o.type).property]

/-- **The answer to a request is sound exactly if the request is negotiable.** -/
theorem sound_iff (s : PppConnection σ) (packet : List UInt8) (h4 : 4 ≤ packet.length)
    (hcode : byteAt packet 0 = 1) : s.Sound packet ↔ s.Negotiable packet :=
  ⟨negotiable_of_sound h4 hcode, sound_of_negotiable h4 hcode⟩

/-- A request for the address 0.0.0.0, which is answered by a Nak. -/
theorem sound_iff_anyAddress :
    fresh.Sound (request 7 [3, 6, 0, 0, 0, 0]) ↔ fresh.Negotiable (request 7 [3, 6, 0, 0, 0, 0]) :=
  sound_iff fresh _ (by decide) rfl

/-- An option list that breaks off, an address option of three bytes and a length field
    of zero are all acknowledged. -/
theorem acknowledged_not_sound :
    ¬ fresh.Sound (request 7 [3, 9]) ∧ ¬ fresh.Sound (request 7 [3, 3, 0]) ∧
      ¬ fresh.Sound [1, 7, 0, 0] := by
  refine ⟨fun h => ?_, fun h => ?_, fun h => ?_⟩
  · obtain ⟨-, -, hleft⟩ := negotiable_of_sound (by decide) rfl h
    have hstuck : Stuck [3, 9] := by
      rintro _ _ _ ⟨⟩
      decide
    rw [requestLeft, requestOptions, show controlData (request 7 [3, 9]) = [3, 9] from rfl,
      options_stuck hstuck] at hleft
    simp at hleft
  · obtain ⟨-, hlen, -⟩ := negotiable_of_sound (by decide) rfl h
    have hoptions : requestOptions (request 7 [3, 3, 0]) = [⟨3, [0], by decide⟩] := by
      have hnil : Stuck [] := by rintro _ _ _ ⟨⟩
      rw [requestOptions, show controlData (request 7 [3, 3, 0]) =
        IpcpOption.encode ⟨3, [0], by decide⟩ ++ [] from rfl, options_cons, options_stuck hnil]
    rw [hoptions] at hlen
    exact absurd (hlen _ List.mem_cons_self (Or.inl rfl)) (by decide)
  · obtain ⟨hfield, -, -⟩ := negotiable_of_sound (by decide) rfl h
    exact absurd hfield (by decide)

end PppConnection

end CuteMac.Modem
