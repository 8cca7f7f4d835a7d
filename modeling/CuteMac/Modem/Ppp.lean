/-
  PPP dialing (`pppFcs`, `encodePppFrame` and `HayesModem::PppConnection` in
  `HayesModem.cpp`).

  * `pppFcs`, `encodePppFrame`: the check sequence and the frames;
  * `PppConnection.send`: the receiver of the guest's bytes; `handlePppFrame`
    checks a frame and dispatches its payload by protocol;
  * `handleIpcp`: the negotiation of addresses;
  * `send_encodePppFrame`: every frame that fits is dispatched as it was encoded.

  The frames are byte stuffing (`CuteMac.Lib.Stuffing`), the check sequence is a
  cyclic redundancy check (`CuteMac.Lib.Crc`).
-/
import CuteMac.Lib.Crc
import CuteMac.Lib.Stuffing
import CuteMac.Modem.Network

namespace CuteMac.Modem

open Machine (run)
open SerialIpOverEthernet (byteAt readBe16 be16)

def pppProtocolIp : UInt16 := 0x0021
def pppProtocolLcp : UInt16 := 0xc021
def pppProtocolPap : UInt16 := 0xc023
def pppProtocolIpcp : UInt16 := 0x8021
def pppFcsGood : UInt16 := 0xf0b8

/-! ## Frames -/

/-- One round of the inner loop of `pppFcs`. -/
def fcsBit (fcs : UInt16) : UInt16 :=
  if fcs &&& 1 ≠ 0 then (fcs >>> 1) ^^^ 0x8408 else fcs >>> 1

def fcsBits : Nat → UInt16 → UInt16
  | 0, fcs => fcs
  | bits + 1, fcs => fcsBits bits (fcsBit fcs)

def pppFcs (data : List UInt8) : UInt16 :=
  data.foldl (fun fcs byte => fcsBits 8 (fcs ^^^ byte.toUInt16)) 0xffff

/-- A 16-bit number, the low byte first. -/
def le16 (value : UInt16) : List UInt8 := [value.toUInt8, (value >>> 8).toUInt8]

/-- Address, control and protocol. -/
def pppHeader (protocol : UInt16) : List UInt8 :=
  [0xff, 0x03, (protocol >>> 8).toUInt8, protocol.toUInt8]

/-- What is between the flags, before the escaping. -/
def pppBody (protocol : UInt16) (payload : List UInt8) : List UInt8 :=
  let body := pppHeader protocol ++ payload
  body ++ le16 (pppFcs body ^^^ 0xffff)

def encodePppFrame (protocol : UInt16) (payload : List UInt8) : List UInt8 :=
  0x7e :: (pppBody protocol payload).flatMap (fun byte =>
    if byte = 0x7e ∨ byte = 0x7d ∨ byte < 0x20 then [0x7d, byte ^^^ 0x20] else [byte]) ++ [0x7e]

/-- `handlePppFrame` up to the dispatch: the protocol and the payload of a good frame. -/
def parsePppFrame (raw : List UInt8) : Option (UInt16 × List UInt8) :=
  let offset := if byteAt raw 0 = 0xff ∧ byteAt raw 1 = 0x03 then 2 else 0
  if raw.length < 4 then none
  else if pppFcs raw ≠ pppFcsGood then none
  else if raw.length - 2 ≤ offset then none
  else if byteAt raw offset &&& 1 ≠ 0 then
    some ((byteAt raw offset).toUInt16, (raw.drop (offset + 1)).take (raw.length - (offset + 1) - 2))
  else if raw.length - 2 ≤ offset + 1 then none
  else
    some (UInt16.ofNat (readBe16 raw offset),
      (raw.drop (offset + 2)).take (raw.length - (offset + 2) - 2))

/-! ## The connection -/

/-- A control packet of `sendPppControl`. -/
structure PppControl where
  protocol : UInt16
  code : UInt8
  id : UInt8
  data : List UInt8
  deriving DecidableEq, Repr

def PppControl.payload (c : PppControl) : List UInt8 :=
  [c.code, c.id] ++ be16 (c.data.length + 4) ++ c.data

/-- The addresses and `m_configuration.mtu` are those of the network, which is built from
    the same configuration. -/
structure PppConnection (σ : Type) where
  network : SerialIpOverEthernet σ
  frame : List UInt8 := []
  escapePending : Bool := false
  sentIpcpRequest : Bool := false
  nextId : UInt8 := 0x40
  /-- the bytes that the modem was given for the guest -/
  incoming : List UInt8 := []
  /-- the payloads dispatched and the control packets sent, which no function reads -/
  dispatched : List (UInt16 × List UInt8) := []
  controls : List PppControl := []

namespace PppConnection

variable {σ : Type}

def enqueueIpPacket (s : PppConnection σ) (packet : List UInt8) : PppConnection σ :=
  { s with incoming := s.incoming ++ encodePppFrame pppProtocolIp packet }

def sendPppControl (s : PppConnection σ) (c : PppControl) : PppConnection σ :=
  { s with
    incoming := s.incoming ++ encodePppFrame c.protocol c.payload
    controls := s.controls ++ [c] }

/-- `sendPppControl` with `nextId()`. -/
def sendNext (s : PppConnection σ) (protocol : UInt16) (code : UInt8) (data : List UInt8) :
    PppConnection σ :=
  sendPppControl { s with nextId := s.nextId + 1 } ⟨protocol, code, s.nextId + 1, data⟩

/-- `packet.mid(4, length - 4)` of a control packet, for `length` the smaller one of the
    packet's length field and its size; a negative length is no limit. -/
def controlData (packet : List UInt8) : List UInt8 :=
  let length := min (readBe16 packet 2) packet.length
  if length < 4 then packet.drop 4 else (packet.drop 4).take (length - 4)

def handleLcp (s : PppConnection σ) (packet : List UInt8) : PppConnection σ :=
  let code := byteAt packet 0
  let id := byteAt packet 1
  let data := controlData packet
  if packet.length < 4 then s
  else if code = 1 then s.sendPppControl ⟨pppProtocolLcp, 2, id, data⟩
  else if code = 5 then s.sendPppControl ⟨pppProtocolLcp, 6, id, data⟩
  else if code = 9 then s.sendPppControl ⟨pppProtocolLcp, 10, id, data⟩
  else s

def handlePap (s : PppConnection σ) (packet : List UInt8) : PppConnection σ :=
  if packet.length < 4 then s
  else if byteAt packet 0 ≠ 1 then s
  else s.sendPppControl ⟨pppProtocolPap, 2, byteAt packet 1, [2, 0x4f, 0x4b]⟩

/-- The address that an address option must carry: the guest's own address, or the
    gateway as the name server. -/
def wanted (s : PppConnection σ) (type : UInt8) : Ipv4Address :=
  if type = 3 then s.network.remoteIp else s.network.localIp

/-- The loop over the options, on what follows `offset`: `needsNak` and `nak`. -/
def walkOptions (wanted : UInt8 → Ipv4Address) :
    List UInt8 → Bool × List UInt8 → Bool × List UInt8
  | type :: optionLength :: rest, (needsNak, nak) =>
    if optionLength < 2 ∨ rest.length + 2 < optionLength.toNat then (needsNak, nak)
    else
      let next := rest.drop (optionLength.toNat - 2)
      if (type = 3 ∨ type = 129 ∨ type = 131) ∧ optionLength = 6 ∧
          rest.take 4 ≠ (wanted type).val then
        walkOptions wanted next (true, nak ++ [type, 6] ++ (wanted type).val)
      else walkOptions wanted next (needsNak, nak)
  | _, (needsNak, nak) => (needsNak, nak)
termination_by options => options.length
decreasing_by all_goals simp only [List.length_drop, List.length_cons]; omega

/-- The Ack at the end of `handleIpcp`; behind the first one the request for the
    gateway's own address is sent. -/
def acknowledge (s : PppConnection σ) (id : UInt8) (options : List UInt8) : PppConnection σ :=
  let acked := s.sendPppControl ⟨pppProtocolIpcp, 2, id, options⟩
  if s.sentIpcpRequest then acked
  else
    { acked.sendNext pppProtocolIpcp 1 ([3, 6] ++ s.network.localIp.val) with
      sentIpcpRequest := true }

def handleIpcp (s : PppConnection σ) (packet : List UInt8) : PppConnection σ :=
  let code := byteAt packet 0
  let id := byteAt packet 1
  let options := controlData packet
  let (needsNak, nak) := walkOptions s.wanted options (false, [])
  if packet.length < 4 then s
  else if code ≠ 1 then s
  else if needsNak then s.sendPppControl ⟨pppProtocolIpcp, 3, id, nak⟩
  else s.acknowledge id options

variable [Slirp σ]

def handleIpPacket (fuel : Nat) (s : PppConnection σ) (packet : List UInt8) : PppConnection σ :=
  let (received, network) := s.network.transmitIpPacket fuel packet
  received.foldl enqueueIpPacket { s with network := network }

/-- The dispatch at the end of `handlePppFrame`. -/
def dispatch (fuel : Nat) (s : PppConnection σ) (protocol : UInt16) (payload : List UInt8) :
    PppConnection σ :=
  let s := { s with dispatched := s.dispatched ++ [(protocol, payload)] }
  if protocol = pppProtocolLcp then s.handleLcp payload
  else if protocol = pppProtocolPap then s.handlePap payload
  else if protocol = pppProtocolIpcp then s.handleIpcp payload
  else if protocol = pppProtocolIp then s.handleIpPacket fuel payload
  else s.sendNext pppProtocolLcp 8 []

def handlePppFrame (fuel : Nat) (s : PppConnection σ) (raw : List UInt8) : PppConnection σ :=
  match parsePppFrame raw with
  | some (protocol, payload) => s.dispatch fuel protocol payload
  | none => s

/-- The end of `send`: a byte of the frame. -/
def append (s : PppConnection σ) (value : UInt8) : PppConnection σ :=
  if (s.frame.length : Int) ≤ s.network.mtu + 16 then { s with frame := s.frame ++ [value] } else s

def send (fuel : Nat) (s : PppConnection σ) (value : UInt8) : PppConnection σ :=
  if !s.network.connected then s
  else if value = 0x7e then
    { (if s.frame ≠ [] then s.handlePppFrame fuel s.frame else s) with
      frame := []
      escapePending := false }
  else if s.escapePending then append { s with escapePending := false } (value ^^^ 0x20)
  else if value = 0x7d then { s with escapePending := true }
  else s.append value

def poll (fuel : Nat) (s : PppConnection σ) : PppConnection σ :=
  let (received, network) := s.network.poll fuel
  received.foldl enqueueIpPacket { s with network := network }

end PppConnection

/-! ## The check sequence -/

theorem fcsBit_toBitVec (fcs : UInt16) :
    (fcsBit fcs).toBitVec = Crc.shift 0x8408#16 fcs.toBitVec := by
  have hbit : fcs &&& 1 ≠ 0 ↔ fcs.toBitVec.getLsbD 0 = true := by
    rw [Ne, ← UInt16.toBitVec_inj, UInt16.toBitVec_and]
    show ¬ fcs.toBitVec &&& 1#16 = 0#16 ↔ _
    rw [BitVec.and_one_eq_setWidth_ofBool_getLsbD]
    cases fcs.toBitVec.getLsbD 0 <;> decide
  unfold fcsBit Crc.shift
  by_cases h : fcs &&& 1 ≠ 0
  · rw [if_pos h, if_pos (hbit.mp h)]
    rfl
  · rw [if_neg h, if_neg (mt hbit.mpr h)]
    rfl

theorem fcsBits_toBitVec (bits : Nat) (fcs : UInt16) :
    (fcsBits bits fcs).toBitVec = Crc.shifts 0x8408#16 bits fcs.toBitVec := by
  induction bits generalizing fcs with
  | zero => rfl
  | succ bits ih => rw [fcsBits, ih, fcsBit_toBitVec, Crc.shifts]

theorem foldl_fcs_toBitVec (data : List UInt8) (fcs : UInt16) :
    (data.foldl (fun fcs byte => fcsBits 8 (fcs ^^^ byte.toUInt16)) fcs).toBitVec =
      (data.map UInt8.toBitVec).foldl (Crc.feed 0x8408#16) fcs.toBitVec := by
  induction data generalizing fcs with
  | nil => rfl
  | cons byte data ih =>
    rw [List.foldl_cons, ih, fcsBits_toBitVec, List.map_cons, List.foldl_cons]
    rfl

theorem value_le16 (x : UInt16) : Crc.value ((le16 x).map UInt8.toBitVec) = x.toBitVec := by
  apply BitVec.eq_of_getLsbD_eq
  intro i hi
  simp only [le16, List.map_cons, List.map_nil, Crc.value]
  rcases Nat.lt_or_ge i 8 with h | h
  · simp [hi, h]
  · simp [hi, Nat.not_lt.mpr h, show i - 8 < 16 by omega, show i - 8 < 8 by omega,
      show 8 + (i - 8) = i by omega]

/-- **A check sequence behind what it checks leaves the same remainder always.** -/
theorem pppFcs_residue (b : List UInt8) : pppFcs (b ++ le16 (pppFcs b ^^^ 0xffff)) = pppFcsGood := by
  apply UInt16.toBitVec_inj.mp
  have hcompl : Crc.value ((le16 (pppFcs b ^^^ 0xffff)).map UInt8.toBitVec) =
      ~~~(pppFcs b).toBitVec := by
    rw [value_le16, UInt16.toBitVec_xor]
    exact BitVec.xor_allOnes
  calc (pppFcs (b ++ le16 (pppFcs b ^^^ 0xffff))).toBitVec
      = ((le16 (pppFcs b ^^^ 0xffff)).map UInt8.toBitVec).foldl (Crc.feed 0x8408#16)
          (pppFcs b).toBitVec := by
        rw [pppFcs, List.foldl_append]
        exact foldl_fcs_toBitVec _ _
    _ = Crc.shifts 0x8408#16 16 (BitVec.allOnes 16) := Crc.foldl_feed_complement rfl hcompl
    _ = pppFcsGood.toBitVec := by decide +kernel

/-! ## The code -/

def pppCode : Stuffing.Code UInt8 where
  flag := 0x7e
  esc := 0x7d
  special byte := byte = 0x7e ∨ byte = 0x7d ∨ byte < 0x20
  quote byte := byte ^^^ 0x20
  unquote byte := byte ^^^ 0x20
  special_flag := by decide
  special_esc := by decide
  unquote_quote byte _ := by
    rw [UInt8.xor_assoc, UInt8.xor_self, UInt8.xor_zero]
  quote_ne_flag byte h := by
    intro hq
    have hbyte : byte = 0x5e := by
      rw [← UInt8.xor_zero (a := byte), ← UInt8.xor_self (a := 0x20), ← UInt8.xor_assoc, hq]
      rfl
    rw [hbyte] at h
    revert h
    decide

theorem encodePppFrame_eq (protocol : UInt16) (payload : List UInt8) :
    encodePppFrame protocol payload = pppCode.frame (pppBody protocol payload) := by
  have hstuff (byte : UInt8) :
      (if byte = 0x7e ∨ byte = 0x7d ∨ byte < 0x20 then [0x7d, byte ^^^ 0x20] else [byte]) =
        pppCode.stuff byte :=
    if_congr (by simp [pppCode]) rfl rfl
  simp only [encodePppFrame, hstuff]
  rfl

theorem length_pppBody (protocol : UInt16) (payload : List UInt8) :
    (pppBody protocol payload).length = payload.length + 6 := by
  simp only [pppBody, pppHeader, le16, List.length_append, List.length_cons, List.length_nil]
  omega

theorem readBe16_cons (protocol : UInt16) (rest : List UInt8) :
    UInt16.ofNat (readBe16 ((protocol >>> 8).toUInt8 :: protocol.toUInt8 :: rest) 0) = protocol := by
  apply UInt16.toNat_inj.mp
  show (((protocol >>> 8).toUInt8.toNat <<< 8 ||| protocol.toUInt8.toNat) % 2 ^ 16) = protocol.toNat
  have hlow := protocol.toUInt8.toNat_lt
  have hlt := protocol.toNat_lt
  rw [← Nat.shiftLeft_add_eq_or_of_lt hlow]
  simp only [UInt16.toNat_toUInt8, UInt16.toNat_shiftRight, Nat.shiftLeft_eq,
    Nat.shiftRight_eq_div_pow, show (8 : UInt16).toNat % 16 = 8 from rfl]
  omega

/-- The protocol and the payload of a body, for a protocol whose number is not cut short. -/
theorem parsePppFrame_pppBody {protocol : UInt16} (heven : (protocol >>> 8).toUInt8 &&& 1 = 0)
    (payload : List UInt8) :
    parsePppFrame (pppBody protocol payload) = some (protocol, payload) := by
  have hlen := length_pppBody protocol payload
  have hfcs : pppFcs (pppBody protocol payload) = pppFcsGood := pppFcs_residue _
  have hdrop : ((pppBody protocol payload).drop 4).take payload.length = payload := by
    simp [pppBody, pppHeader]
  have h2 : byteAt (pppBody protocol payload) 2 = (protocol >>> 8).toUInt8 := rfl
  have hp : UInt16.ofNat (readBe16 (pppBody protocol payload) 2) = protocol :=
    readBe16_cons protocol (payload ++ le16 (pppFcs (pppHeader protocol ++ payload) ^^^ 0xffff))
  simp only [parsePppFrame]
  rw [if_pos (show byteAt (pppBody protocol payload) 0 = 0xff ∧
      byteAt (pppBody protocol payload) 1 = 0x03 from ⟨rfl, rfl⟩), hlen]
  rw [if_neg (by omega), if_neg (by simp [hfcs]), if_neg (by omega), if_neg (by simp [h2, heven]),
    if_neg (by omega), hp, show payload.length + 6 - (2 + 2) - 2 = payload.length by omega, hdrop]

namespace PppConnection

variable {σ : Type}

/-! ## Dispatching -/

/-- The connection with another partial frame and another log. -/
def withFrame (s : PppConnection σ) (frame : List UInt8) (escapePending : Bool)
    (dispatched : List (UInt16 × List UInt8)) : PppConnection σ :=
  { s with
    frame := frame
    escapePending := escapePending
    dispatched := dispatched }

section
variable (s : PppConnection σ) (f : List UInt8) (e : Bool) (d : List (UInt16 × List UInt8))
  (packet : List UInt8)

theorem handleLcp_withFrame :
    (s.withFrame f e d).handleLcp packet = (s.handleLcp packet).withFrame f e d := by
  simp only [handleLcp]
  split_ifs <;> rfl

theorem handlePap_withFrame :
    (s.withFrame f e d).handlePap packet = (s.handlePap packet).withFrame f e d := by
  unfold handlePap
  split_ifs <;> rfl

theorem acknowledge_withFrame (id : UInt8) :
    (s.withFrame f e d).acknowledge id packet = (s.acknowledge id packet).withFrame f e d := by
  have hsent : (s.withFrame f e d).sentIpcpRequest = s.sentIpcpRequest := rfl
  simp only [acknowledge, hsent]
  split_ifs <;> rfl

theorem handleIpcp_withFrame :
    (s.withFrame f e d).handleIpcp packet = (s.handleIpcp packet).withFrame f e d := by
  have hwanted : (s.withFrame f e d).wanted = s.wanted := rfl
  simp only [handleIpcp, hwanted]
  split_ifs
  · rfl
  · rfl
  · rfl
  · exact acknowledge_withFrame s f e d _ _

theorem foldl_enqueueIpPacket_withFrame (packets : List (List UInt8)) :
    packets.foldl enqueueIpPacket (s.withFrame f e d) =
      (packets.foldl enqueueIpPacket s).withFrame f e d := by
  induction packets generalizing s with
  | nil => rfl
  | cons packet packets ih => exact ih (s.enqueueIpPacket packet)

variable [Slirp σ] (fuel : Nat)

theorem handleIpPacket_withFrame :
    (s.withFrame f e d).handleIpPacket fuel packet =
      (s.handleIpPacket fuel packet).withFrame f e d :=
  foldl_enqueueIpPacket_withFrame
    { s with network := (s.network.transmitIpPacket fuel packet).2 } f e d _

/-- A dispatch is logged and does not look at the receiver. -/
theorem dispatch_withFrame (protocol : UInt16) :
    (s.withFrame f e d).dispatch fuel protocol packet =
      (s.dispatch fuel protocol packet).withFrame f e (d ++ [(protocol, packet)]) := by
  have hlog : { s.withFrame f e d with dispatched := d ++ [(protocol, packet)] } =
      withFrame { s with dispatched := s.dispatched ++ [(protocol, packet)] } f e
        (d ++ [(protocol, packet)]) := rfl
  simp only [dispatch]
  rw [show (s.withFrame f e d).dispatched = d from rfl, hlog]
  split_ifs
  · exact handleLcp_withFrame _ f e _ packet
  · exact handlePap_withFrame _ f e _ packet
  · exact handleIpcp_withFrame _ f e _ packet
  · exact handleIpPacket_withFrame _ f e _ packet fuel
  · rfl

end

/-! ## Receiving -/

variable [Slirp σ] (fuel : Nat)

/-- The connection with a partial frame. -/
def collecting (s : PppConnection σ) (frame : List UInt8) (escapePending : Bool) :
    PppConnection σ :=
  s.withFrame frame escapePending s.dispatched

theorem receives (s : PppConnection σ) (hc : s.network.connected = true) :
    Stuffing.Receives pppCode (s.network.mtu + 17).toNat (send fuel) s.collecting where
  plain frame a hn hflag hesc := by
    have hn' : (frame.length : Int) ≤ s.network.mtu + 16 := by omega
    have hflag' : ¬ a = 0x7e := hflag
    have hesc' : ¬ a = 0x7d := hesc
    simp [collecting, withFrame, send, append, hc, hn', hflag', hesc']
  escape frame hn := by
    have hne : ¬ (0x7d : UInt8) = 0x7e := by decide
    simp [collecting, withFrame, send, pppCode, hc, hne]
  quoted frame a hn hflag := by
    have hn' : (frame.length : Int) ≤ s.network.mtu + 16 := by omega
    have hflag' : ¬ a = 0x7e := hflag
    simp [collecting, withFrame, send, append, pppCode, hc, hn', hflag']

/-- **Frames round-trip.**  A frame whose body fits is dispatched as it was encoded, by a
    receiver behind a flag. -/
theorem roundTrip :
    (∀ b, pppFcs (b ++ le16 (pppFcs b ^^^ 0xffff)) = 0xf0b8) ∧
    ∀ (s : PppConnection σ) (protocol : UInt16) (payload : List UInt8),
      s.network.connected = true → s.frame = [] → s.escapePending = false →
      (protocol >>> 8).toUInt8 &&& 1 = 0 → protocol.toUInt8 &&& 1 = 1 →
      ((pppBody protocol payload).length : Int) ≤ s.network.mtu + 16 →
        pppFcs (pppBody protocol payload) = pppFcsGood ∧
        run (send fuel) s (encodePppFrame protocol payload) = s.dispatch fuel protocol payload ∧
        (s.dispatch fuel protocol payload).dispatched = s.dispatched ++ [(protocol, payload)] := by
  refine ⟨pppFcs_residue, ?_⟩
  intro s protocol payload hc hf he heven _ hlen
  have hidle : s.collecting [] false = s := by
    rw [← hf, ← he]
    rfl
  have hbody : run (send fuel) s (pppCode.stuffed (pppBody protocol payload)) =
      s.collecting (pppBody protocol payload) false := by
    have hle : ([] : List UInt8).length + (pppBody protocol payload).length ≤
        (s.network.mtu + 17).toNat := by
      rw [List.length_nil]
      omega
    have h := (s.receives fuel hc).stuffed (pppBody protocol payload) hle
    rwa [hidle, List.nil_append] at h
  have hdispatch := s.dispatch_withFrame [] false s.dispatched payload fuel protocol
  rw [show s.withFrame [] false s.dispatched = s from hidle] at hdispatch
  have hopen : s.send fuel 0x7e = s := by
    rw [send, if_neg (by simp [hc]), if_pos rfl, if_neg (by simp [hf]), ← hf, ← he]
  have hclose : (s.collecting (pppBody protocol payload) false).send fuel 0x7e =
      s.dispatch fuel protocol payload := by
    have hne : (s.collecting (pppBody protocol payload) false).frame ≠ [] := by
      intro h0
      have := congrArg List.length h0
      simp [collecting, withFrame, length_pppBody] at this
    have hhandle : (s.collecting (pppBody protocol payload) false).handlePppFrame fuel
        (pppBody protocol payload) = (s.dispatch fuel protocol payload).withFrame
          (pppBody protocol payload) false (s.dispatched ++ [(protocol, payload)]) := by
      rw [handlePppFrame, parsePppFrame_pppBody heven]
      exact dispatch_withFrame s _ false _ payload fuel protocol
    rw [send, if_neg (by simp [collecting, withFrame, hc]), if_pos rfl, if_pos hne]
    exact (congrArg (fun s' => withFrame s' [] false s'.dispatched) hhandle).trans hdispatch.symm
  refine ⟨pppFcs_residue _, ?_, ?_⟩
  · rw [encodePppFrame_eq, Stuffing.Code.frame, List.cons_append, Machine.run_cons,
      Machine.run_append]
    show send fuel (run (send fuel) (s.send fuel 0x7e) _) 0x7e = _
    rw [hopen, hbody, hclose]
  · rw [hdispatch]
    rfl

/-- A new connection. -/
def fresh : PppConnection Unit where
  network := .fresh

theorem roundTrip_fresh :
    run (send 1) fresh (encodePppFrame pppProtocolIp [0x7e, 0x7d, 0x03]) =
      fresh.dispatch 1 pppProtocolIp [0x7e, 0x7d, 0x03] :=
  ((roundTrip 1).2 fresh pppProtocolIp [0x7e, 0x7d, 0x03] rfl rfl rfl (by decide) (by decide)
    (by rw [length_pppBody]; decide)).2.1

end PppConnection

end CuteMac.Modem
