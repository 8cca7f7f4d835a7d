/-
  SLIP dialing (`encodeSlipFrame` and `HayesModem::SlipConnection` in `HayesModem.cpp`).

  * `SlipConnection.send`: the receiver of the guest's bytes, with its partial
    frame, its pending escape and the dropping of an oversize frame;
  * `enqueueIpPacket`: the packets for the guest, each in a frame of its own;
  * `resyncs`: whatever was sent before, a packet behind an END arrives, and
    what is emitted can be decoded by the same rules.

  The frames are byte stuffing (`CuteMac.Lib.Stuffing`) with END as the flag.
-/
import CuteMac.Lib.Stuffing
import CuteMac.Modem.Network

namespace CuteMac.Modem

open Machine (run)

def slipEnd : UInt8 := 0xc0
def slipEsc : UInt8 := 0xdb
def slipEscEnd : UInt8 := 0xdc
def slipEscEsc : UInt8 := 0xdd

def encodeSlipFrame (payload : List UInt8) : List UInt8 :=
  slipEnd :: payload.flatMap (fun byte =>
    if byte = slipEnd then [slipEsc, slipEscEnd]
    else if byte = slipEsc then [slipEsc, slipEscEsc]
    else [byte]) ++ [slipEnd]

/-- The byte that a byte behind an escape stands for; any other is kept. -/
def unquoted (value : UInt8) : UInt8 :=
  if value = slipEscEnd then slipEnd else if value = slipEscEsc then slipEsc else value

/-- `m_configuration.mtu` is the `mtu` of the network, which is built from it. -/
structure SlipConnection (σ : Type) where
  network : SerialIpOverEthernet σ
  frame : List UInt8 := []
  escapePending : Bool := false
  droppingOversize : Bool := false
  /-- the bytes that the modem was given for the guest -/
  incoming : List UInt8 := []
  /-- the packets handed to `transmitIpPacket` and to `enqueueIpPacket`, which no
      function reads -/
  handed : List (List UInt8) := []
  emitted : List (List UInt8) := []

namespace SlipConnection

variable {σ : Type}

def enqueueIpPacket (s : SlipConnection σ) (packet : List UInt8) : SlipConnection σ :=
  { s with
    incoming := s.incoming ++ encodeSlipFrame packet
    emitted := s.emitted ++ [packet] }

/-- The end of `send`: a byte of the frame. -/
def append (s : SlipConnection σ) (value : UInt8) : SlipConnection σ :=
  if s.network.mtu ≤ s.frame.length then { s with droppingOversize := true }
  else { s with frame := s.frame ++ [value] }

variable [Slirp σ]

/-- `m_network.transmitIpPacket`, with `enqueueIpPacket` for the packets received. -/
def transmitIpPacket (fuel : Nat) (s : SlipConnection σ) (packet : List UInt8) :
    SlipConnection σ :=
  let (received, network) := s.network.transmitIpPacket fuel packet
  received.foldl enqueueIpPacket
    { s with
      network := network
      handed := s.handed ++ [packet] }

def send (fuel : Nat) (s : SlipConnection σ) (value : UInt8) : SlipConnection σ :=
  if !s.network.connected then s
  else if value = slipEnd then
    if s.droppingOversize then
      { s with
        frame := []
        droppingOversize := false
        escapePending := false }
    else if s.frame ≠ [] then
      { s.transmitIpPacket fuel s.frame with
        frame := []
        escapePending := false }
    else { s with escapePending := false }
  else if s.droppingOversize then s
  else if s.escapePending then
    append { s with escapePending := false } (unquoted value)
  else if value = slipEsc then { s with escapePending := true }
  else s.append value

def poll (fuel : Nat) (s : SlipConnection σ) : SlipConnection σ :=
  let (received, network) := s.network.poll fuel
  received.foldl enqueueIpPacket { s with network := network }

/-- What happens to a connection: a byte of the guest, or a poll of the modem. -/
inductive Input where
  | send (value : UInt8)
  | poll
  deriving DecidableEq, Repr

def apply (fuel : Nat) (s : SlipConnection σ) : Input → SlipConnection σ
  | .send value => s.send fuel value
  | .poll => s.poll fuel

end SlipConnection

/-! ## The code -/

def slipCode : Stuffing.Code UInt8 where
  flag := slipEnd
  esc := slipEsc
  special byte := byte == slipEnd || byte == slipEsc
  quote byte := if byte = slipEnd then slipEscEnd else slipEscEsc
  unquote := unquoted
  special_flag := by decide
  special_esc := by decide
  unquote_quote byte h := by
    rcases Bool.or_eq_true_iff.mp h with h | h
    · rw [eq_of_beq h]; decide
    · rw [eq_of_beq h]; decide
  quote_ne_flag byte _ := by
    split_ifs <;> decide

theorem encodeSlipFrame_eq (payload : List UInt8) :
    encodeSlipFrame payload = slipCode.frame payload := by
  have hstuff (byte : UInt8) :
      (if byte = slipEnd then [slipEsc, slipEscEnd]
        else if byte = slipEsc then [slipEsc, slipEscEsc] else [byte]) = slipCode.stuff byte := by
    unfold Stuffing.Code.stuff
    by_cases h : byte = slipEnd
    · rw [if_pos h, if_pos (by rw [h]; decide), h]
      rfl
    · rw [if_neg h]
      by_cases h' : byte = slipEsc
      · rw [if_pos h', if_pos (by rw [h']; decide), h']
        rfl
      · rw [if_neg h', if_neg (by simp [slipCode, h, h'])]
  simp only [encodeSlipFrame, hstuff]
  rfl

namespace SlipConnection

variable {σ : Type}

/-! ## Emitting -/

/-- The connection has given the modem the packets `ps`, each in its frame. -/
structure Emits (s s' : SlipConnection σ) (ps : List (List UInt8)) : Prop where
  incoming : s'.incoming = s.incoming ++ ps.flatMap encodeSlipFrame
  emitted : s'.emitted = s.emitted ++ ps
  fits : ∀ p ∈ ps, SerialIpOverEthernet.Fits s.network.mtu p
  mtu : s'.network.mtu = s.network.mtu
  connected : s'.network.connected = s.network.connected

theorem Emits.nil {s s' : SlipConnection σ} (hi : s'.incoming = s.incoming)
    (he : s'.emitted = s.emitted) (hm : s'.network.mtu = s.network.mtu)
    (hc : s'.network.connected = s.network.connected) : Emits s s' [] :=
  ⟨by simp [hi], by simp [he], by simp, hm, hc⟩

theorem Emits.trans {s s' s'' : SlipConnection σ} {ps qs : List (List UInt8)}
    (h : Emits s s' ps) (h' : Emits s' s'' qs) : Emits s s'' (ps ++ qs) := by
  refine ⟨?_, ?_, ?_, h'.mtu.trans h.mtu, h'.connected.trans h.connected⟩
  · rw [h'.incoming, h.incoming, List.flatMap_append, List.append_assoc]
  · rw [h'.emitted, h.emitted, List.append_assoc]
  · intro p hp
    rcases List.mem_append.mp hp with hp | hp
    · exact h.fits p hp
    · exact h.mtu ▸ h'.fits p hp

/-- What emitting leaves alone. -/
structure SameFrame (s s' : SlipConnection σ) : Prop where
  handed : s'.handed = s.handed
  frame : s'.frame = s.frame
  droppingOversize : s'.droppingOversize = s.droppingOversize

theorem foldl_enqueueIpPacket (ps : List (List UInt8)) (s : SlipConnection σ)
    (hf : ∀ p ∈ ps, SerialIpOverEthernet.Fits s.network.mtu p) :
    Emits s (ps.foldl enqueueIpPacket s) ps ∧ SameFrame s (ps.foldl enqueueIpPacket s) ∧
      (ps.foldl enqueueIpPacket s).network = s.network := by
  induction ps generalizing s with
  | nil => exact ⟨.nil rfl rfl rfl rfl, ⟨rfl, rfl, rfl⟩, rfl⟩
  | cons p ps ih =>
    obtain ⟨hp, hps⟩ := List.forall_mem_cons.mp hf
    obtain ⟨he, hs, hn⟩ := ih (s.enqueueIpPacket p) hps
    have h1 : Emits s (s.enqueueIpPacket p) [p] := by
      refine ⟨?_, rfl, ?_, rfl, rfl⟩
      · simp [enqueueIpPacket]
      · simpa using hp
    exact ⟨h1.trans he, ⟨hs.handed, hs.frame, hs.droppingOversize⟩, hn⟩

theorem append_emits (s : SlipConnection σ) (value : UInt8) : Emits s (s.append value) [] := by
  unfold append
  split_ifs <;> exact .nil rfl rfl rfl rfl

/-! ## Handing over -/

/-- Between frames. -/
structure Idle (s : SlipConnection σ) : Prop where
  frame : s.frame = []
  escapePending : s.escapePending = false
  droppingOversize : s.droppingOversize = false

/-- The partial frame fits the line, as it does on a new connection. -/
def Short (s : SlipConnection σ) : Prop := (s.frame.length : Int) ≤ s.network.mtu

/-- The connection has handed over the packets `ps`, and the network has taken those of
    them that it takes. -/
structure Hands (s s' : SlipConnection σ) (ps : List (List UInt8)) : Prop where
  handed : s'.handed = s.handed ++ ps
  taken : s'.network.taken = s.network.taken ++ ps.flatMap s.network.log
  mtu : s'.network.mtu = s.network.mtu
  connected : s'.network.connected = s.network.connected

section
variable {s s' s'' : SlipConnection σ} {ps qs : List (List UInt8)}

theorem Hands.nil (hh : s'.handed = s.handed) (ht : s'.network.taken = s.network.taken)
    (hm : s'.network.mtu = s.network.mtu) (hc : s'.network.connected = s.network.connected) :
    Hands s s' [] :=
  ⟨by simp [hh], by simp [ht], hm, hc⟩

theorem Hands.trans (h : Hands s s' ps) (h' : Hands s' s'' qs) : Hands s s'' (ps ++ qs) := by
  refine ⟨?_, ?_, h'.mtu.trans h.mtu, h'.connected.trans h.connected⟩
  · rw [h'.handed, h.handed, List.append_assoc]
  · rw [h'.taken, h.taken, SerialIpOverEthernet.log_congr h.mtu h.connected, List.flatMap_append,
      List.append_assoc]

theorem append_hands (s : SlipConnection σ) (value : UInt8) :
    Hands s (s.append value) [] ∧ (Short s → Short (s.append value)) := by
  unfold append
  split_ifs with h
  · exact ⟨.nil rfl rfl rfl rfl, id⟩
  · refine ⟨.nil rfl rfl rfl rfl, fun _ => ?_⟩
    simp only [Short, List.length_append, List.length_singleton]
    omega

/-- The connection with a partial frame. -/
def collecting (s : SlipConnection σ) (frame : List UInt8) (escapePending : Bool) :
    SlipConnection σ :=
  { s with
    frame := frame
    escapePending := escapePending
    droppingOversize := false }

theorem Idle.collecting_eq (h : Idle s) : s.collecting [] false = s := by
  obtain ⟨hf, he, hd⟩ := h
  cases s
  simp_all [collecting]

end

/-! ## Steps -/

variable [Slirp σ] (fuel : Nat)

theorem transmitIpPacket_spec (s : SlipConnection σ) (packet : List UInt8) :
    (∃ ps, Emits s (s.transmitIpPacket fuel packet) ps) ∧
      SameFrame { s with handed := s.handed ++ [packet] } (s.transmitIpPacket fuel packet) ∧
      (s.transmitIpPacket fuel packet).network.taken =
        s.network.taken ++ s.network.log packet := by
  obtain ⟨⟨hm, ht, hc⟩, hf⟩ := s.network.transmitIpPacket_spec fuel packet
  obtain ⟨he, hs, hn⟩ := foldl_enqueueIpPacket (s.network.transmitIpPacket fuel packet).1
    { s with
      network := (s.network.transmitIpPacket fuel packet).2
      handed := s.handed ++ [packet] } (fun p hp => hm ▸ hf p hp)
  refine ⟨⟨_, he.incoming, he.emitted, hf, ?_, ?_⟩, ⟨hs.handed, hs.frame, hs.droppingOversize⟩, ?_⟩
  · exact he.mtu.trans hm
  · exact he.connected.trans hc
  · exact (congrArg SerialIpOverEthernet.taken hn).trans ht

theorem poll_spec (s : SlipConnection σ) :
    (∃ ps, Emits s (s.poll fuel) ps) ∧ SameFrame s (s.poll fuel) ∧
      (s.poll fuel).network.taken = s.network.taken := by
  obtain ⟨⟨hm, ht, hc⟩, hf⟩ := s.network.poll_spec fuel
  obtain ⟨he, hs, hn⟩ := foldl_enqueueIpPacket (s.network.poll fuel).1
    { s with network := (s.network.poll fuel).2 } (fun p hp => hm ▸ hf p hp)
  refine ⟨⟨_, he.incoming, he.emitted, hf, he.mtu.trans hm, he.connected.trans hc⟩,
    ⟨hs.handed, hs.frame, hs.droppingOversize⟩, ?_⟩
  exact (congrArg SerialIpOverEthernet.taken hn).trans ht

theorem send_emits (s : SlipConnection σ) (value : UInt8) :
    ∃ ps, Emits s (s.send fuel value) ps := by
  unfold send
  split_ifs
  · exact ⟨[], .nil rfl rfl rfl rfl⟩
  · exact ⟨[], .nil rfl rfl rfl rfl⟩
  · obtain ⟨⟨ps, he⟩, -, -⟩ := s.transmitIpPacket_spec fuel s.frame
    exact ⟨ps, he.incoming, he.emitted, he.fits, he.mtu, he.connected⟩
  · exact ⟨[], .nil rfl rfl rfl rfl⟩
  · exact ⟨[], .nil rfl rfl rfl rfl⟩
  · have h : Emits s { s with escapePending := false } [] := .nil rfl rfl rfl rfl
    exact ⟨[], h.trans (append_emits _ _)⟩
  · exact ⟨[], .nil rfl rfl rfl rfl⟩
  · exact ⟨[], append_emits s value⟩

theorem run_emits (s : SlipConnection σ) (inputs : List Input) :
    ∃ ps, Emits s (run (apply fuel) s inputs) ps := by
  induction inputs generalizing s with
  | nil => exact ⟨[], .nil rfl rfl rfl rfl⟩
  | cons input inputs ih =>
    have h1 : ∃ ps, Emits s (s.apply fuel input) ps := by
      cases input with
      | send value => exact s.send_emits fuel value
      | poll => exact (s.poll_spec fuel).1
    obtain ⟨ps, h1⟩ := h1
    obtain ⟨qs, h2⟩ := ih (s.apply fuel input)
    exact ⟨_, h1.trans h2⟩

/-! ## Receiving -/

variable {fuel} {s : SlipConnection σ}

/-- The packets that an END hands over. -/
def pending (s : SlipConnection σ) : List (List UInt8) :=
  if s.droppingOversize ∨ s.frame = [] then [] else [s.frame]

/-- **An END ends the frame, whatever the state.** -/
theorem send_end (hc : s.network.connected = true) :
    Hands s (s.send fuel slipEnd) s.pending ∧ Idle (s.send fuel slipEnd) := by
  rw [send, if_neg (by simp [hc]), if_pos rfl, pending]
  by_cases hd : s.droppingOversize = true
  · rw [if_pos hd, if_pos (Or.inl hd)]
    exact ⟨.nil rfl rfl rfl rfl, rfl, rfl, rfl⟩
  · rw [if_neg hd]
    by_cases hf : s.frame = []
    · rw [if_neg (by simp [hf]), if_pos (Or.inr hf)]
      exact ⟨.nil rfl rfl rfl rfl, hf, rfl, by simpa using hd⟩
    · rw [if_pos hf, if_neg (by simp [hd, hf])]
      obtain ⟨⟨ps, he⟩, hs, ht⟩ := s.transmitIpPacket_spec fuel s.frame
      refine ⟨⟨hs.handed, by simpa using ht, he.mtu, he.connected⟩, rfl, rfl, ?_⟩
      exact hs.droppingOversize.trans (by simpa using hd)

/-- No other byte hands anything over. -/
theorem send_ne_end {value : UInt8} (hv : value ≠ slipEnd) :
    Hands s (s.send fuel value) [] ∧ (Short s → Short (s.send fuel value)) := by
  unfold send
  split_ifs with hc hd he hesc
  · exact ⟨.nil rfl rfl rfl rfl, id⟩
  · exact ⟨.nil rfl rfl rfl rfl, id⟩
  · have h0 : Hands s { s with escapePending := false } [] := .nil rfl rfl rfl rfl
    obtain ⟨h1, h2⟩ := append_hands { s with escapePending := false } (unquoted value)
    exact ⟨h0.trans h1, h2⟩
  · exact ⟨.nil rfl rfl rfl rfl, id⟩
  · exact append_hands s value

/-- The packets are no longer than the line allows. -/
def AllShort (s : SlipConnection σ) (ps : List (List UInt8)) : Prop :=
  ∀ p ∈ ps, (p.length : Int) ≤ s.network.mtu

theorem apply_hands (input : Input) :
    ∃ ps, Hands s (s.apply fuel input) ps ∧
      (Short s → Short (s.apply fuel input) ∧ AllShort s ps) := by
  cases input with
  | poll =>
    obtain ⟨⟨ps, he⟩, hs, ht⟩ := s.poll_spec fuel
    refine ⟨[], .nil hs.handed ht he.mtu he.connected, fun h => ⟨?_, by simp [AllShort]⟩⟩
    show ((s.poll fuel).frame.length : Int) ≤ (s.poll fuel).network.mtu
    rw [hs.frame, he.mtu]
    exact h
  | send value =>
    by_cases hv : value = slipEnd
    · by_cases hc : s.network.connected = true
      · obtain ⟨hh, hi⟩ := @send_end σ _ fuel s hc
        rw [apply, hv]
        refine ⟨_, hh, fun h => ⟨?_, ?_⟩⟩
        · rw [Short, hi.frame, hh.mtu]
          exact Int.le_trans (Int.natCast_nonneg _) h
        · intro p hp
          rw [pending] at hp
          split_ifs at hp
          · exact absurd hp (by simp)
          · exact List.mem_singleton.mp hp ▸ h
      · rw [apply, send, if_pos (by simp [hc])]
        exact ⟨[], .nil rfl rfl rfl rfl, fun h => ⟨h, by simp [AllShort]⟩⟩
    · obtain ⟨hh, hs⟩ := @send_ne_end σ _ fuel s value hv
      exact ⟨[], hh, fun h => ⟨hs h, by simp [AllShort]⟩⟩

theorem run_hands (s : SlipConnection σ) (inputs : List Input) :
    ∃ ps, Hands s (run (apply fuel) s inputs) ps ∧
      (Short s → Short (run (apply fuel) s inputs) ∧ AllShort s ps) := by
  induction inputs generalizing s with
  | nil => exact ⟨[], .nil rfl rfl rfl rfl, fun h => ⟨h, by simp [AllShort]⟩⟩
  | cons input inputs ih =>
    obtain ⟨ps, h1, hs1⟩ := @apply_hands σ _ fuel s input
    obtain ⟨qs, h2, hs2⟩ := ih (s.apply fuel input)
    refine ⟨ps ++ qs, h1.trans h2, fun h => ?_⟩
    obtain ⟨h1', hps⟩ := hs1 h
    obtain ⟨h2', hqs⟩ := hs2 h1'
    refine ⟨h2', ?_⟩
    intro p hp
    rcases List.mem_append.mp hp with hp | hp
    · exact hps p hp
    · exact h1.mtu ▸ hqs p hp

/-! ## Frames -/

theorem run_apply_send (s : SlipConnection σ) (bytes : List UInt8) :
    run (apply fuel) s (bytes.map .send) = run (send fuel) s bytes :=
  List.foldl_map

/-- Between frames a connection receives the code. -/
theorem receives (s : SlipConnection σ) (hc : s.network.connected = true) :
    Stuffing.Receives slipCode s.network.mtu.toNat (send fuel) s.collecting where
  plain frame a hn hflag hesc := by
    have hn' : ¬ s.network.mtu ≤ frame.length := by omega
    have hflag' : ¬ a = slipEnd := hflag
    have hesc' : ¬ a = slipEsc := hesc
    simp [collecting, send, append, hc, hn', hflag', hesc']
  escape frame hn := by
    have hne : ¬ slipEsc = slipEnd := by decide
    simp [collecting, send, slipCode, hc, hne]
  quoted frame a hn hflag := by
    have hn' : ¬ s.network.mtu ≤ frame.length := by omega
    have hflag' : ¬ a = slipEnd := hflag
    simp [collecting, send, append, slipCode, hc, hn', hflag']

/-- A whole frame hands over what was pending, and the packet in the frame. -/
theorem run_frame (hc : s.network.connected = true) {p : List UInt8} (hp : p ≠ [])
    (hm : (p.length : Int) ≤ s.network.mtu) :
    Hands s (run (send fuel) s (encodeSlipFrame p)) (s.pending ++ [p]) ∧
      Idle (run (send fuel) s (encodeSlipFrame p)) := by
  obtain ⟨h1, hi⟩ := @send_end σ _ fuel s hc
  have hc1 := h1.connected.trans hc
  have hlen : ([] : List UInt8).length + p.length ≤
      (s.send fuel slipEnd).network.mtu.toNat := by
    rw [h1.mtu, List.length_nil]
    omega
  -- the bytes between the flags leave the packet as the partial frame
  have hrun : run (send fuel) (s.send fuel slipEnd) (slipCode.stuffed p) =
      (s.send fuel slipEnd).collecting p false := by
    have h := (@receives σ _ fuel (s.send fuel slipEnd) hc1).stuffed p hlen
    rwa [hi.collecting_eq, List.nil_append] at h
  have hpend : ((s.send fuel slipEnd).collecting p false).pending = [p] := by
    simp [pending, collecting, hp]
  obtain ⟨h2, hi2⟩ := @send_end σ _ fuel ((s.send fuel slipEnd).collecting p false) hc1
  have heq : run (send fuel) s (encodeSlipFrame p) =
      ((s.send fuel slipEnd).collecting p false).send fuel slipEnd := by
    rw [encodeSlipFrame_eq, Stuffing.Code.frame, List.cons_append, Machine.run_cons,
      Machine.run_append]
    exact congrArg (fun s' => send fuel s' slipEnd) hrun
  rw [heq]
  rw [hpend] at h2
  exact ⟨h1.trans ⟨h2.handed, h2.taken, h2.mtu, h2.connected⟩, hi2⟩

/-- A receiver that is between frames gets the packets of any frames that fit it. -/
theorem run_frames (hc : s.network.connected = true) (hi : Idle s) {ps : List (List UInt8)}
    (hps : ∀ p ∈ ps, SerialIpOverEthernet.Fits s.network.mtu p) :
    Hands s (run (send fuel) s (ps.flatMap encodeSlipFrame)) ps := by
  induction ps generalizing s with
  | nil => exact .nil rfl rfl rfl rfl
  | cons p ps ih =>
    obtain ⟨⟨hp, hm⟩, hps⟩ := List.forall_mem_cons.mp hps
    obtain ⟨h1, hi1⟩ := @run_frame σ _ fuel s hc p hp hm
    have hpend : s.pending = [] := by simp [pending, hi.frame]
    rw [hpend] at h1
    rw [List.flatMap_cons, Machine.run_append]
    exact h1.trans (ih (h1.connected.trans hc) hi1 (h1.mtu ▸ hps))

/-- **Frames arrive behind any bytes, and what is emitted can be decoded.** -/
theorem resyncs (fuel : Nat) :
    (∀ (s : SlipConnection σ) (g : List Input) (p : List UInt8), s.network.connected = true →
      20 ≤ p.length → (p.length : Int) ≤ s.network.mtu →
        ∃ ps, (run (apply fuel) s (g ++ (slipEnd :: encodeSlipFrame p).map .send)).handed =
            s.handed ++ ps ++ [p] ∧
          (run (apply fuel) s (g ++ (slipEnd :: encodeSlipFrame p).map .send)).network.taken =
            s.network.taken ++ ps.filter (s.network.Takes ·) ++ [p]) ∧
    (∀ (s : SlipConnection σ) (inputs : List Input), ∃ ps,
      (run (apply fuel) s inputs).handed = s.handed ++ ps ∧
      (run (apply fuel) s inputs).network.taken =
        s.network.taken ++ ps.filter (s.network.Takes ·) ∧
      (∀ p ∈ ps.filter (s.network.Takes ·), (p.length : Int) ≤ s.network.mtu) ∧
      (s.Short → (run (apply fuel) s inputs).Short ∧
        ∀ p ∈ ps, (p.length : Int) ≤ s.network.mtu)) ∧
    (∀ (s : SlipConnection σ) (inputs : List Input), ∃ ps bytes,
      (run (apply fuel) s inputs).emitted = s.emitted ++ ps ∧
      (run (apply fuel) s inputs).incoming = s.incoming ++ bytes ∧
      ∀ (τ : Type) [Slirp τ] (peer : SlipConnection τ), peer.network.connected = true →
        peer.Idle → s.network.mtu ≤ peer.network.mtu →
          (run (send fuel) peer bytes).handed = peer.handed ++ ps) := by
  refine ⟨?_, ?_, ?_⟩
  · intro s g p hc h20 hm
    obtain ⟨ps, hg, -⟩ := @run_hands σ _ fuel s g
    have hc1 := hg.connected.trans hc
    obtain ⟨hend, hi⟩ := @send_end σ _ fuel (run (apply fuel) s g) hc1
    have hall := hg.trans hend
    have hp : p ≠ [] := by
      rintro rfl
      simp at h20
    obtain ⟨hframe, -⟩ := @run_frame σ _ fuel _ (hall.connected.trans hc) p hp (hall.mtu ▸ hm)
    have hpend : (send fuel (run (apply fuel) s g) slipEnd).pending = [] := by
      simp [pending, hi.frame]
    rw [hpend] at hframe
    rw [List.nil_append] at hframe
    have hrun := hall.trans hframe
    have htakes : s.network.Takes p := ⟨hc, h20, hm⟩
    rw [Machine.run_append, run_apply_send, Machine.run_cons]
    refine ⟨ps ++ pending (run (apply fuel) s g), by simp [hrun.handed], ?_⟩
    rw [hrun.taken, SerialIpOverEthernet.flatMap_log, List.filter_append, List.append_assoc]
    simp [htakes]
  · intro s inputs
    obtain ⟨ps, hh, hs⟩ := @run_hands σ _ fuel s inputs
    refine ⟨ps, hh.handed, by rw [hh.taken, SerialIpOverEthernet.flatMap_log], ?_, hs⟩
    intro p hp
    exact (of_decide_eq_true (List.mem_filter.mp hp).2).2.2
  · intro s inputs
    obtain ⟨ps, he⟩ := s.run_emits fuel inputs
    refine ⟨ps, _, he.emitted, he.incoming, ?_⟩
    intro τ _ peer hc hi hm
    exact (run_frames hc hi fun p hp =>
      ⟨(he.fits p hp).1, Int.le_trans (he.fits p hp).2 hm⟩).handed

/-- A new connection. -/
def fresh : SlipConnection Unit where
  network := .fresh

theorem resyncs_fresh :
    ∃ ps, (run (apply 1) fresh ([.send slipEsc, .poll] ++
        (slipEnd :: encodeSlipFrame (List.replicate 20 slipEnd)).map .send)).handed =
      fresh.handed ++ ps ++ [List.replicate 20 slipEnd] := by
  obtain ⟨ps, h, -⟩ := (@resyncs Unit _ 1).1 fresh [.send slipEsc, .poll]
    (List.replicate 20 slipEnd) rfl (by decide) (by decide)
  exact ⟨ps, h⟩

end SlipConnection

end CuteMac.Modem
