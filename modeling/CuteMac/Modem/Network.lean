/-
  IP over the serial line (`SerialIpOverEthernet` in `HayesModem.cpp`).

  The guest's IP packets go to an Ethernet backend, except those for the gateway
  address, which are answered here.  The backend is `SlirpEthernetBackend`; what
  libslirp does is a parameter (`Slirp`), and no result says anything about it.

  `drainBackend` loops until the backend has no more frames; `fuel` bounds the
  rounds of the loop, and no result depends on it.
-/
import Mathlib.Data.List.Basic
import Mathlib.Tactic.SplitIfs
import CuteMac.Lib.Slice
import Mathlib.Algebra.Group.Nat.Defs

namespace CuteMac.Modem

open Slice (mid overwrite)

/-! ## The backend -/

/-- libslirp: the frames that it sends (`send_packet`) while it takes a frame, and while
    its sockets and timers are polled. -/
class Slirp (σ : Type) where
  input : σ → List UInt8 → List (List UInt8) × σ
  poll : σ → List (List UInt8) × σ

/-- `SlirpEthernetBackend`; it is connected as long as there is a libslirp instance. -/
structure SlirpEthernetBackend (σ : Type) where
  connected : Bool
  slirp : σ
  receivedFrames : List (List UInt8)

namespace SlirpEthernetBackend

variable {σ : Type}

def receiveFrame (b : SlirpEthernetBackend σ) :
    Option (List UInt8) × SlirpEthernetBackend σ :=
  match b.receivedFrames with
  | [] => (none, b)
  | frame :: frames => (some frame, { b with receivedFrames := frames })

@[simp] theorem receiveFrame_connected (b : SlirpEthernetBackend σ) :
    b.receiveFrame.2.connected = b.connected := by
  rcases b with ⟨connected, slirp, _ | ⟨frame, frames⟩⟩ <;> rfl

variable [Slirp σ]

def transmitFrame (b : SlirpEthernetBackend σ) (frame : List UInt8) : SlirpEthernetBackend σ :=
  if !b.connected || frame.isEmpty then b
  else
    { b with
      receivedFrames := b.receivedFrames ++ (Slirp.input b.slirp frame).1
      slirp := (Slirp.input b.slirp frame).2 }

def poll (b : SlirpEthernetBackend σ) : SlirpEthernetBackend σ :=
  if !b.connected then b
  else
    { b with
      receivedFrames := b.receivedFrames ++ (Slirp.poll b.slirp).1
      slirp := (Slirp.poll b.slirp).2 }

@[simp] theorem transmitFrame_connected (b : SlirpEthernetBackend σ) (frame : List UInt8) :
    (b.transmitFrame frame).connected = b.connected := by
  unfold transmitFrame
  split_ifs <;> rfl

@[simp] theorem poll_connected (b : SlirpEthernetBackend σ) :
    b.poll.connected = b.connected := by
  unfold poll
  split_ifs <;> rfl

end SlirpEthernetBackend

/-! ## IP over Ethernet -/

abbrev Ipv4Address : Type := { bytes : List UInt8 // bytes.length = 4 }

structure SerialIpOverEthernet (σ : Type) where
  mtu : Int
  localIp : Ipv4Address
  remoteIp : Ipv4Address
  backend : SlirpEthernetBackend σ
  /-- the packets that `transmitIpPacket` took so far, which no function reads -/
  taken : List (List UInt8) := []

namespace SerialIpOverEthernet

def ethernetHeaderSize : Nat := 14
def arpPacketSize : Nat := 28
def ethertypeIpv4 : Nat := 0x0800
def ethertypeArp : Nat := 0x0806

/-! ## Bytes -/

def byteAt (bytes : List UInt8) (i : Nat) : UInt8 := bytes.getD i 0

def readBe16 (bytes : List UInt8) (i : Nat) : Nat :=
  (byteAt bytes i).toNat <<< 8 ||| (byteAt bytes (i + 1)).toNat

def be16 (value : Nat) : List UInt8 := [UInt8.ofNat (value >>> 8), UInt8.ofNat value]

/-- The carries of a sum of 16-bit words are added to its low word. -/
def foldCarries (sum : Nat) : Nat :=
  if sum < 2 ^ 16 then sum else foldCarries (sum % 2 ^ 16 + sum / 2 ^ 16)
termination_by sum
decreasing_by omega

/-- The sum of the 16-bit words of some bytes; a last odd byte is a high byte. -/
def sumWords : List UInt8 → Nat
  | high :: low :: bytes => (high.toNat <<< 8 ||| low.toNat) + sumWords bytes
  | [high] => high.toNat <<< 8
  | [] => 0

/-- `internetChecksum`: the complement of the folded sum. -/
def internetChecksum (bytes : List UInt8) : Nat :=
  2 ^ 16 - 1 - foldCarries (sumWords bytes % 2 ^ 32)

/-! ## Packets for the gateway -/

/-- The reply to an ICMP echo request.  Of a message of three bytes the checksum
    reaches one byte behind the packet, which is not sent. -/
def echoReply (packet : List UInt8) (headerLength totalLength : Nat) : List UInt8 :=
  let out := packet.take totalLength
  let out := overwrite out 12 (mid packet 16 4)
  let out := overwrite out 16 (mid packet 12 4)
  let out := (out.set 8 64).set 10 0
  let out := out.set 11 0
  let out := overwrite out 10 (be16 (internetChecksum (out.take headerLength)))
  let out := ((out.set headerLength 0).set (headerLength + 2) 0).set (headerLength + 3) 0
  (overwrite out (headerLength + 2) (be16 (internetChecksum (out.drop headerLength)))).take totalLength

variable {σ : Type}

/-- `handleLocalIpPacket`: `none` if the packet is not for the gateway, otherwise
    the packets that answer it. -/
def handleLocalIpPacket (n : SerialIpOverEthernet σ) (ip : List UInt8) :
    Option (List (List UInt8)) :=
  let headerLength := (byteAt ip 0 &&& 0x0f).toNat * 4
  let totalLength := readBe16 ip 2
  if byteAt ip 0 >>> 4 ≠ 4 ∨ headerLength < 20 ∨ ip.length < headerLength + 8 then none
  else if totalLength < headerLength ∨ ip.length < totalLength then none
  else if mid ip 16 4 ≠ n.localIp.val then none
  else if byteAt ip 9 ≠ 1 then some []
  else if internetChecksum (ip.take headerLength) ≠ 0 then some []
  else if byteAt ip headerLength ≠ 8 ∨
      internetChecksum (mid ip headerLength (totalLength - headerLength)) ≠ 0 then some []
  else some [echoReply ip headerLength totalLength]

/-! ## Frames -/

/-- The Ethernet address of an end of the line. -/
def mac (ip : Ipv4Address) : List UInt8 := [0x52, 0x55] ++ ip.val

section
variable [Slirp σ]

def connected (n : SerialIpOverEthernet σ) : Bool := n.backend.connected

def transmitFrame (n : SerialIpOverEthernet σ) (frame : List UInt8) : SerialIpOverEthernet σ :=
  { n with backend := n.backend.transmitFrame frame }

/-- An ARP request for the guest's address is answered. -/
def handleArp (n : SerialIpOverEthernet σ) (frame : List UInt8) : SerialIpOverEthernet σ :=
  if frame.length < ethernetHeaderSize + arpPacketSize ∨ readBe16 frame 20 ≠ 1 ∨
      mid frame 38 4 ≠ n.remoteIp.val then n
  else
    n.transmitFrame (mid frame 6 6 ++ mac n.remoteIp ++ be16 ethertypeArp ++ be16 1 ++
      be16 ethertypeIpv4 ++ [6, 4] ++ be16 2 ++ mac n.remoteIp ++ n.remoteIp.val ++
      mac n.localIp ++ n.localIp.val)

/-- `handleEthernetFrame`: the packets received, and the network. -/
def handleEthernetFrame (n : SerialIpOverEthernet σ) (frame : List UInt8) :
    List (List UInt8) × SerialIpOverEthernet σ :=
  let payloadLength := frame.length - ethernetHeaderSize
  if frame.length < ethernetHeaderSize then ([], n)
  else if readBe16 frame 12 = ethertypeArp then ([], n.handleArp frame)
  else if readBe16 frame 12 ≠ ethertypeIpv4 then ([], n)
  else if payloadLength = 0 ∨ n.mtu < payloadLength then ([], n)
  else ([frame.drop ethernetHeaderSize], n)

def drainBackend : Nat → SerialIpOverEthernet σ → List (List UInt8) × SerialIpOverEthernet σ
  | 0, n => ([], n)
  | fuel + 1, n =>
    match n.backend.receiveFrame with
    | (none, backend) => ([], { n with backend := backend })
    | (some frame, backend) =>
      let (packets, n) := handleEthernetFrame { n with backend := backend } frame
      let (more, n) := drainBackend fuel n
      (packets ++ more, n)

/-- `poll`: the packets received. -/
def poll (fuel : Nat) (n : SerialIpOverEthernet σ) :
    List (List UInt8) × SerialIpOverEthernet σ :=
  if !n.connected then ([], n)
  else drainBackend fuel { n with backend := n.backend.poll }

/-- Whether `transmitIpPacket` takes the packet. -/
def Takes (n : SerialIpOverEthernet σ) (packet : List UInt8) : Prop :=
  n.connected = true ∧ 20 ≤ packet.length ∧ (packet.length : Int) ≤ n.mtu

instance (n : SerialIpOverEthernet σ) (packet : List UInt8) : Decidable (n.Takes packet) :=
  inferInstanceAs (Decidable (_ ∧ _))

/-- `transmitIpPacket`: the packets received in answer. -/
def transmitIpPacket (fuel : Nat) (n : SerialIpOverEthernet σ) (packet : List UInt8) :
    List (List UInt8) × SerialIpOverEthernet σ :=
  if n.Takes packet then
    let n := { n with taken := n.taken ++ [packet] }
    match n.handleLocalIpPacket packet with
    | some replies => (replies, n)
    | none =>
      drainBackend fuel
        (n.transmitFrame (mac n.localIp ++ mac n.remoteIp ++ be16 ethertypeIpv4 ++ packet))
  else ([], n)

end

/-! ## What the network leaves alone, and what it delivers -/

/-- A packet that fits the line. -/
def Fits (mtu : Int) (packet : List UInt8) : Prop := packet ≠ [] ∧ (packet.length : Int) ≤ mtu

/-- Only frames went to and came from libslirp. -/
def SameLine (n n' : SerialIpOverEthernet σ) : Prop :=
  n'.mtu = n.mtu ∧ n'.taken = n.taken ∧ n'.backend.connected = n.backend.connected

theorem SameLine.refl (n : SerialIpOverEthernet σ) : SameLine n n := ⟨rfl, rfl, rfl⟩

theorem SameLine.trans {n n' n'' : SerialIpOverEthernet σ} (h : SameLine n n')
    (h' : SameLine n' n'') : SameLine n n'' :=
  ⟨h'.1.trans h.1, h'.2.1.trans h.2.1, h'.2.2.trans h.2.2⟩

/-- What `transmitIpPacket` takes when it is handed a packet. -/
def log (n : SerialIpOverEthernet σ) (packet : List UInt8) : List (List UInt8) :=
  if n.Takes packet then [packet] else []

theorem log_congr {n n' : SerialIpOverEthernet σ} (hm : n'.mtu = n.mtu)
    (hc : n'.connected = n.connected) : n'.log = n.log := by
  ext1 p
  exact if_congr (by rw [Takes, hm, hc]; rfl) rfl rfl

theorem flatMap_log (n : SerialIpOverEthernet σ) (ps : List (List UInt8)) :
    ps.flatMap n.log = ps.filter (n.Takes ·) := by
  induction ps with
  | nil => rfl
  | cons p ps ih =>
    rw [List.flatMap_cons, ih, log]
    by_cases h : n.Takes p <;> simp [h]

theorem echoReply_fits {ip : List UInt8} {mtu : Int} (headerLength : Nat) {totalLength : Nat}
    (hpos : 0 < totalLength) (hle : totalLength ≤ ip.length) (h : (ip.length : Int) ≤ mtu) :
    Fits mtu (echoReply ip headerLength totalLength) := by
  have hne (l : List UInt8) (i v : Nat) : (overwrite l i (be16 v)).take totalLength ≠ [] := by
    intro h0
    have hlen := congrArg List.length h0
    simp only [overwrite, be16, List.length_take, List.length_append, List.length_cons,
      List.length_nil] at hlen
    omega
  refine ⟨hne _ _ _, ?_⟩
  have hlen : (echoReply ip headerLength totalLength).length ≤ totalLength :=
    List.length_take_le _ _
  omega

theorem handleLocalIpPacket_fits (n : SerialIpOverEthernet σ) {ip : List UInt8}
    (h : (ip.length : Int) ≤ n.mtu) {replies : List (List UInt8)}
    (hr : n.handleLocalIpPacket ip = some replies) : ∀ p ∈ replies, Fits n.mtu p := by
  simp only [handleLocalIpPacket] at hr
  split_ifs at hr with h₁ h₂ h₃ h₄ h₅ h₆
  all_goals
    obtain rfl := Option.some.inj hr
    intro p hp
  · exact absurd hp (by simp)
  · exact absurd hp (by simp)
  · exact absurd hp (by simp)
  · obtain rfl := List.mem_singleton.mp hp
    exact echoReply_fits _ (by omega) (by omega) h

section
variable [Slirp σ]

theorem transmitFrame_sameLine (n : SerialIpOverEthernet σ) (frame : List UInt8) :
    SameLine n (n.transmitFrame frame) :=
  ⟨rfl, rfl, SlirpEthernetBackend.transmitFrame_connected _ _⟩

theorem handleArp_sameLine (n : SerialIpOverEthernet σ) (frame : List UInt8) :
    SameLine n (n.handleArp frame) := by
  unfold handleArp
  split_ifs
  · exact .refl n
  · exact transmitFrame_sameLine n _

theorem handleEthernetFrame_spec (n : SerialIpOverEthernet σ) (frame : List UInt8) :
    SameLine n (n.handleEthernetFrame frame).2 ∧
      ∀ p ∈ (n.handleEthernetFrame frame).1, Fits n.mtu p := by
  simp only [handleEthernetFrame]
  split_ifs with h₁ h₂ h₃ h₄
  · exact ⟨.refl n, by simp⟩
  · exact ⟨handleArp_sameLine n frame, by simp⟩
  · exact ⟨.refl n, by simp⟩
  · exact ⟨.refl n, by simp⟩
  · refine ⟨.refl n, ?_⟩
    intro p hp
    obtain rfl := List.mem_singleton.mp hp
    rw [not_or] at h₄
    have hlen : (frame.drop ethernetHeaderSize).length = frame.length - ethernetHeaderSize :=
      List.length_drop
    refine ⟨fun h0 => h₄.1 (by rw [← hlen, h0]; rfl), ?_⟩
    rw [hlen]
    exact Int.not_lt.mp h₄.2

theorem drainBackend_spec (fuel : Nat) (n : SerialIpOverEthernet σ) :
    SameLine n (drainBackend fuel n).2 ∧ ∀ p ∈ (drainBackend fuel n).1, Fits n.mtu p := by
  induction fuel generalizing n with
  | zero => exact ⟨.refl n, by simp [drainBackend]⟩
  | succ fuel ih =>
    have hc := n.backend.receiveFrame_connected
    rw [drainBackend]
    rcases hr : n.backend.receiveFrame with ⟨_ | frame, backend⟩
    · rw [hr] at hc
      exact ⟨⟨rfl, rfl, hc⟩, by simp⟩
    · rw [hr] at hc
      have hb : SameLine n { n with backend := backend } := ⟨rfl, rfl, hc⟩
      obtain ⟨hs, hp⟩ := handleEthernetFrame_spec { n with backend := backend } frame
      obtain ⟨hs', hp'⟩ := ih (handleEthernetFrame { n with backend := backend } frame).2
      rw [hs.1] at hp'
      refine ⟨hb.trans (hs.trans hs'), ?_⟩
      intro p hmem
      rcases List.mem_append.mp hmem with hmem | hmem
      · exact hp p hmem
      · exact hp' p hmem

theorem poll_spec (fuel : Nat) (n : SerialIpOverEthernet σ) :
    SameLine n (poll fuel n).2 ∧ ∀ p ∈ (poll fuel n).1, Fits n.mtu p := by
  unfold poll
  split_ifs
  · exact ⟨.refl n, by simp⟩
  · have hb : SameLine n { n with backend := n.backend.poll } :=
      ⟨rfl, rfl, n.backend.poll_connected⟩
    obtain ⟨hs, hp⟩ := drainBackend_spec fuel { n with backend := n.backend.poll }
    exact ⟨hb.trans hs, hp⟩

theorem transmitIpPacket_spec (fuel : Nat) (n : SerialIpOverEthernet σ) (packet : List UInt8) :
    SameLine { n with taken := n.taken ++ n.log packet } (n.transmitIpPacket fuel packet).2 ∧
      ∀ p ∈ (n.transmitIpPacket fuel packet).1, Fits n.mtu p := by
  by_cases h : n.Takes packet
  · rw [log, if_pos h, transmitIpPacket, if_pos h]
    cases hr : handleLocalIpPacket { n with taken := n.taken ++ [packet] } packet with
    | some replies =>
      simp only [hr]
      exact ⟨.refl _, handleLocalIpPacket_fits { n with taken := n.taken ++ [packet] } h.2.2 hr⟩
    | none =>
      simp only [hr]
      obtain ⟨hs, hp⟩ := drainBackend_spec fuel
        (transmitFrame { n with taken := n.taken ++ [packet] }
          (mac n.localIp ++ mac n.remoteIp ++ be16 ethertypeIpv4 ++ packet))
      exact ⟨(transmitFrame_sameLine _ _).trans hs, hp⟩
  · rw [log, if_neg h, transmitIpPacket, if_neg h, List.append_nil]
    exact ⟨.refl n, by simp⟩

end

/-- A libslirp that sends nothing. -/
instance quiet : Slirp Unit where
  input _ _ := ([], ())
  poll _ := ([], ())

/-- A new network with the smallest line that can be configured. -/
def fresh : SerialIpOverEthernet Unit where
  mtu := 296
  localIp := ⟨[172, 16, 0, 1], rfl⟩
  remoteIp := ⟨[172, 16, 0, 2], rfl⟩
  backend := ⟨true, (), []⟩

end SerialIpOverEthernet

end CuteMac.Modem
