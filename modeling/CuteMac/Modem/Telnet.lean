/-
  The telnet filter of the modem's TCP connection (`HayesModem::TcpConnection`
  in `HayesModem.cpp`).

  * `TcpConnection`: the flags of the filter, the bytes on their way to the
    socket and the bytes enqueued for the guest;
  * `Item`, `encode`: the telnet stream, as the other side sends it;
  * `Peer`: the telnet rules by which the other side decodes what it gets;
  * `transparent_iff`: a session is transparent exactly if no subnegotiation has
    contents and the guest sends no byte 0xff.

  The socket thread and the guest thread push under one lock, the three bytes of
  a reply at once.  Where a push of the guest falls into the loop over the bytes
  of one read, the pushes are those of a session that reads the two parts one
  after the other, so events are taken in sequence.
-/
import Mathlib.Data.List.Induction
import Mathlib.Tactic.SplitIfs
import CuteMac.Lib.Machine

namespace CuteMac.Modem

open Machine (run)

structure TcpConnection where
  telnet : Bool
  telnetIac : Bool := false
  telnetVerb : UInt8 := 0
  /-- `m_outgoing` -/
  outgoing : List UInt8 := []
  /-- the bytes that the socket was given so far -/
  written : List UInt8 := []
  /-- the bytes that were enqueued for the guest so far -/
  incoming : List UInt8 := []
deriving DecidableEq, Repr

namespace TcpConnection

/-- The answer to a negotiation: DO and DONT are refused by WONT, WILL and WONT by DONT. -/
def responseVerb (verb : UInt8) : UInt8 := if verb = 0xfd ∨ verb = 0xfe then 0xfc else 0xfe

/-- The body of the loop in `queueSocketBytes`: the bytes it appends to `clean`,
    and the connection. -/
def filterByte (c : TcpConnection) (byte : UInt8) : List UInt8 × TcpConnection :=
  if c.telnetIac then
    if byte = 0xff then ([0xff], { c with telnetIac := false })
    else if 0xfb ≤ byte ∧ byte ≤ 0xfe then ([], { c with telnetVerb := byte, telnetIac := false })
    else ([], { c with telnetIac := false })
  else if c.telnetVerb ≠ 0 then
    ([], { c with
      outgoing := c.outgoing ++ [0xff, responseVerb c.telnetVerb, byte]
      telnetVerb := 0 })
  else if byte = 0xff then ([], { c with telnetIac := true })
  else ([byte], c)

/-- The loop in `queueSocketBytes`. -/
def filterBytes (c : TcpConnection) : List UInt8 → List UInt8 × TcpConnection
  | [] => ([], c)
  | byte :: bytes =>
    let (clean, c) := c.filterByte byte
    let (more, c) := c.filterBytes bytes
    (clean ++ more, c)

/-- `enqueueIncoming` of the modem. -/
def enqueueIncoming (c : TcpConnection) (bytes : List UInt8) : TcpConnection :=
  { c with incoming := c.incoming ++ bytes }

def queueSocketBytes (c : TcpConnection) (bytes : List UInt8) : TcpConnection :=
  if !c.telnet then c.enqueueIncoming bytes
  else
    let (clean, c) := c.filterBytes bytes
    if clean ≠ [] then c.enqueueIncoming clean else c

/-- A byte that the guest sends. -/
def send (c : TcpConnection) (value : UInt8) : TcpConnection :=
  { c with outgoing := c.outgoing ++ [value] }

/-- The socket is given what is on its way. -/
def write (c : TcpConnection) : TcpConnection :=
  { c with written := c.written ++ c.outgoing, outgoing := [] }

/-- What happens to an online connection. -/
inductive Event where
  | read (bytes : List UInt8)
  | send (value : UInt8)
  | write
deriving DecidableEq, Repr

def apply (c : TcpConnection) : Event → TcpConnection
  | .read bytes => c.queueSocketBytes bytes
  | .send value => c.send value
  | .write => c.write

end TcpConnection

/-! ## The telnet protocol -/

namespace Telnet

inductive Verb where
  | will
  | wont
  | do_
  | dont
deriving DecidableEq, Repr

def Verb.code : Verb → UInt8
  | .will => 0xfb
  | .wont => 0xfc
  | .do_ => 0xfd
  | .dont => 0xfe

/-- The verb that refuses. -/
def Verb.refusal : Verb → Verb
  | .will | .wont => .dont
  | .do_ | .dont => .wont

/-- A command of two bytes: its code is below that of SB. -/
structure Command where
  code : UInt8
  lt : code < 0xfa

/-- A piece of a telnet stream. -/
inductive Item where
  | data (byte : UInt8)
  | negotiation (verb : Verb) (option : UInt8)
  | command (command : Command)
  | subnegotiation (contents : List UInt8)

/-- A data byte 0xff is doubled. -/
def escape (byte : UInt8) : List UInt8 := if byte = 0xff then [0xff, 0xff] else [byte]

def negotiationBytes (p : Verb × UInt8) : List UInt8 := [0xff, p.1.code, p.2]

def Item.encode : Item → List UInt8
  | .data byte => escape byte
  | .negotiation verb option => negotiationBytes (verb, option)
  | .command c => [0xff, c.code]
  | .subnegotiation contents => [0xff, 0xfa] ++ contents.flatMap escape ++ [0xff, 0xf0]

/-- The stream of some pieces. -/
def encode (items : List Item) : List UInt8 := items.flatMap Item.encode

def Item.data? : Item → Option UInt8
  | .data byte => some byte
  | _ => none

/-- The refusal that a negotiation calls for. -/
def Item.refusal? : Item → Option (Verb × UInt8)
  | .negotiation verb option => some (verb.refusal, option)
  | _ => none

/-- Where the decoder of the other side stands. -/
inductive Peer where
  | text
  | iac
  | verb (verb : Verb)
  | sub
  | subIac
deriving DecidableEq, Repr

def verb? (byte : UInt8) : Option Verb :=
  if byte = 0xfb then some .will
  else if byte = 0xfc then some .wont
  else if byte = 0xfd then some .do_
  else if byte = 0xfe then some .dont
  else none

/-- The data bytes and the negotiations in a stream, by the telnet rules. -/
def decodeFrom : Peer → List UInt8 → List UInt8 × List (Verb × UInt8)
  | _, [] => ([], [])
  | .text, byte :: bytes =>
    if byte = 0xff then decodeFrom .iac bytes
    else
      let (data, negotiations) := decodeFrom .text bytes
      (byte :: data, negotiations)
  | .iac, byte :: bytes =>
    if byte = 0xff then
      let (data, negotiations) := decodeFrom .text bytes
      (0xff :: data, negotiations)
    else if byte = 0xfa then decodeFrom .sub bytes
    else
      match verb? byte with
      | some verb => decodeFrom (.verb verb) bytes
      | none => decodeFrom .text bytes
  | .verb verb, option :: bytes =>
    let (data, negotiations) := decodeFrom .text bytes
    (data, (verb, option) :: negotiations)
  | .sub, byte :: bytes => decodeFrom (if byte = 0xff then .subIac else .sub) bytes
  | .subIac, byte :: bytes => decodeFrom (if byte = 0xf0 then .text else .sub) bytes

def decode (bytes : List UInt8) : List UInt8 × List (Verb × UInt8) := decodeFrom .text bytes

end Telnet

/-! ## What the filter makes of a stream -/

namespace TcpConnection

open Telnet

/-- The filter on its own: its flags, what it passes and the replies it makes. -/
structure Scan where
  iac : Bool := false
  verb : UInt8 := 0
  clean : List UInt8 := []
  replies : List (UInt8 × UInt8) := []

def Scan.step (s : Scan) (byte : UInt8) : Scan :=
  if s.iac then
    if byte = 0xff then { s with iac := false, clean := s.clean ++ [0xff] }
    else if 0xfb ≤ byte ∧ byte ≤ 0xfe then { s with iac := false, verb := byte }
    else { s with iac := false }
  else if s.verb ≠ 0 then
    { s with verb := 0, replies := s.replies ++ [(responseVerb s.verb, byte)] }
  else if byte = 0xff then { s with iac := true }
  else { s with clean := s.clean ++ [byte] }

def replyBytes (p : UInt8 × UInt8) : List UInt8 := [0xff, p.1, p.2]

/-- The stream `s` is an interleaving of the bytes `guest` and the replies. -/
inductive Pushed : List UInt8 → List (UInt8 × UInt8) → List UInt8 → Prop where
  | nil : Pushed [] [] []
  | byte (b : UInt8) {guest replies s} : Pushed guest replies s →
      Pushed (b :: guest) replies (b :: s)
  | reply (p : UInt8 × UInt8) {guest replies s} : Pushed guest replies s →
      Pushed guest (p :: replies) (replyBytes p ++ s)

theorem Pushed.append {g₁ g₂ : List UInt8} {r₁ r₂ : List (UInt8 × UInt8)} {s₁ s₂ : List UInt8}
    (h₁ : Pushed g₁ r₁ s₁) (h₂ : Pushed g₂ r₂ s₂) : Pushed (g₁ ++ g₂) (r₁ ++ r₂) (s₁ ++ s₂) := by
  induction h₁ with
  | nil => exact h₂
  | byte b _ ih => exact ih.byte b
  | reply p _ ih =>
    rw [List.append_assoc]
    exact ih.reply p

theorem Pushed.replies (r : List (UInt8 × UInt8)) : Pushed [] r (r.flatMap replyBytes) := by
  induction r with
  | nil => exact .nil
  | cons p r ih => exact ih.reply p

theorem Pushed.length {g : List UInt8} {r : List (UInt8 × UInt8)} {s : List UInt8}
    (h : Pushed g r s) : s.length = g.length + 3 * r.length := by
  induction h with
  | nil => rfl
  | byte b _ ih => simp only [List.length_cons, ih]; omega
  | reply p _ ih => simp only [List.length_append, List.length_cons, replyBytes, ih]; simp; omega

/-- One byte of a read. -/
theorem filterByte_spec (c : TcpConnection) (s : Scan) (byte : UInt8)
    (hi : c.telnetIac = s.iac) (hv : c.telnetVerb = s.verb) :
    ∃ r, (s.step byte).clean = s.clean ++ (c.filterByte byte).1 ∧
      (s.step byte).replies = s.replies ++ r ∧
      (c.filterByte byte).2 = { c with
        telnetIac := (s.step byte).iac
        telnetVerb := (s.step byte).verb
        outgoing := c.outgoing ++ r.flatMap replyBytes } := by
  rcases c with ⟨telnet, iac, verb, outgoing, written, incoming⟩
  rcases s with ⟨iac', verb', clean, replies⟩
  obtain rfl : iac = iac' := hi
  obtain rfl : verb = verb' := hv
  by_cases hreply : iac = false ∧ verb ≠ 0
  · obtain ⟨rfl, hne⟩ := hreply
    refine ⟨[(responseVerb verb, byte)], ?_⟩
    simp [filterByte, Scan.step, hne, replyBytes]
  · -- no other byte makes a reply
    refine ⟨[], ?_⟩
    simp only [filterByte, Scan.step]
    cases iac with
    | true => split_ifs <;> simp_all
    | false =>
      have h0 : verb = 0 := by simpa using hreply
      subst h0
      split_ifs <;> simp_all

/-- The loop over the bytes of a read: the connection follows the filter, and
    only replies are pushed. -/
theorem filterBytes_spec (c : TcpConnection) (s : Scan) (bytes : List UInt8)
    (hi : c.telnetIac = s.iac) (hv : c.telnetVerb = s.verb) :
    ∃ r, (run Scan.step s bytes).clean = s.clean ++ (c.filterBytes bytes).1 ∧
      (run Scan.step s bytes).replies = s.replies ++ r ∧
      (c.filterBytes bytes).2 = { c with
        telnetIac := (run Scan.step s bytes).iac
        telnetVerb := (run Scan.step s bytes).verb
        outgoing := c.outgoing ++ r.flatMap replyBytes } := by
  induction bytes generalizing c s with
  | nil => exact ⟨[], by simp [filterBytes], by simp, by simp [filterBytes, ← hi, ← hv]⟩
  | cons byte bytes ih =>
    obtain ⟨r, hclean, hreplies, hc⟩ := filterByte_spec c s byte hi hv
    obtain ⟨r', hclean', hreplies', hc'⟩ := ih (c.filterByte byte).2 (s.step byte)
      (by rw [hc]) (by rw [hc])
    refine ⟨r ++ r', ?_, ?_, ?_⟩
    · rw [Machine.run_cons, hclean', hclean, List.append_assoc]
      rfl
    · rw [Machine.run_cons, hreplies', hreplies, List.append_assoc]
    · rw [Machine.run_cons]
      refine hc'.trans ?_
      rw [hc]
      simp only [List.flatMap_append, List.append_assoc]

/-! ## Runs -/

def Event.bytes : Event → List UInt8
  | .read bytes => bytes
  | .send _ | .write => []

def Event.value? : Event → Option UInt8
  | .send value => some value
  | .read _ | .write => none

/-- The bytes read from the socket. -/
def received (events : List Event) : List UInt8 := events.flatMap Event.bytes

/-- The bytes sent by the guest. -/
def sent (events : List Event) : List UInt8 := events.filterMap Event.value?

/-- The connection after the events: it stands where the filter stands after the
    bytes received, however they were cut. -/
structure Follows (bytes guest : List UInt8) (c : TcpConnection) : Prop where
  telnet : c.telnet = true
  iac : c.telnetIac = (run Scan.step {} bytes).iac
  verb : c.telnetVerb = (run Scan.step {} bytes).verb
  incoming : c.incoming = (run Scan.step {} bytes).clean
  pushed : Pushed guest (run Scan.step {} bytes).replies (c.written ++ c.outgoing)

theorem Follows.read {bytes guest : List UInt8} {c : TcpConnection} (h : Follows bytes guest c)
    (chunk : List UInt8) : Follows (bytes ++ chunk) guest (c.queueSocketBytes chunk) := by
  obtain ⟨r, hclean, hreplies, hc⟩ := filterBytes_spec c (run Scan.step {} bytes) chunk h.iac h.verb
  rw [← Machine.run_append] at hclean hreplies hc
  have hx : c.queueSocketBytes chunk = (c.filterBytes chunk).2.enqueueIncoming
      (c.filterBytes chunk).1 := by
    simp only [queueSocketBytes, h.telnet, Bool.not_true, Bool.false_eq_true, if_false]
    split_ifs with hne
    · rfl
    · rw [not_not.mp hne]
      simp [enqueueIncoming]
  rw [hx, hc]
  refine ⟨h.telnet, rfl, rfl, ?_, ?_⟩
  · rw [hclean, ← h.incoming]
    rfl
  · have hp := h.pushed.append (Pushed.replies r)
    rw [List.append_nil, ← hreplies, List.append_assoc] at hp
    exact hp

theorem Follows.send {bytes guest : List UInt8} {c : TcpConnection} (h : Follows bytes guest c)
    (value : UInt8) : Follows bytes (guest ++ [value]) (c.send value) := by
  refine ⟨h.telnet, h.iac, h.verb, h.incoming, ?_⟩
  have hp := h.pushed.append (Pushed.byte value .nil)
  rw [List.append_nil, List.append_assoc] at hp
  exact hp

theorem Follows.write {bytes guest : List UInt8} {c : TcpConnection} (h : Follows bytes guest c) :
    Follows bytes guest c.write := by
  refine ⟨h.telnet, h.iac, h.verb, h.incoming, ?_⟩
  simpa [TcpConnection.write] using h.pushed

/-- **Insensitive to chunking.** -/
theorem follows_run (events : List Event) :
    Follows (received events) (sent events) (run apply { telnet := true } events) := by
  induction events using List.reverseRecOn with
  | nil => exact ⟨rfl, rfl, rfl, rfl, .nil⟩
  | append_singleton events e ih =>
    rw [Machine.run_append]
    have hr : received (events ++ [e]) = received events ++ e.bytes := by simp [received]
    have hs : sent (events ++ [e]) = sent events ++ e.value?.toList := by
      cases e <;> simp [sent, Event.value?]
    rw [hr, hs]
    cases e with
    | read chunk =>
      rw [show (Event.read chunk).value?.toList = [] from rfl, List.append_nil]
      exact ih.read chunk
    | send value =>
      rw [show (Event.send value).bytes = [] from rfl, List.append_nil]
      exact ih.send value
    | write =>
      rw [show Event.write.bytes = [] from rfl, show Event.write.value?.toList = [] from rfl,
        List.append_nil, List.append_nil]
      exact ih.write

/-! ## Whole streams -/

/-- What the filter passes of a piece: the contents of a subnegotiation as if
    they were data. -/
def passed : Item → List UInt8
  | .data byte => [byte]
  | .subnegotiation contents => contents
  | _ => []

/-- The reply that the filter makes to a piece. -/
def reply? (item : Item) : Option (UInt8 × UInt8) :=
  item.refusal?.map fun p => (p.1.code, p.2)

/-- Between two pieces. -/
def Scan.Idle (s : Scan) : Prop := s.iac = false ∧ s.verb = 0

theorem scan_escape {s : Scan} (h : s.Idle) (byte : UInt8) :
    run Scan.step s (escape byte) = { s with clean := s.clean ++ [byte] } := by
  rcases s with ⟨iac, verb, clean, replies⟩
  obtain ⟨rfl, rfl⟩ := h
  by_cases hb : byte = 0xff
  · simp [escape, hb, Scan.step]
  · simp [escape, hb, Scan.step]

theorem scan_contents {s : Scan} (h : s.Idle) (contents : List UInt8) :
    run Scan.step s (contents.flatMap escape) = { s with clean := s.clean ++ contents } := by
  induction contents generalizing s with
  | nil => simp
  | cons byte contents ih =>
    have h' : ({ s with clean := s.clean ++ [byte] } : Scan).Idle := h
    rw [List.flatMap_cons, Machine.run_append, scan_escape h, ih h']
    simp

theorem scan_item {s : Scan} (h : s.Idle) (item : Item) :
    run Scan.step s item.encode =
      { s with
        clean := s.clean ++ passed item
        replies := s.replies ++ (reply? item).toList } := by
  rcases s with ⟨iac, verb, clean, replies⟩
  obtain ⟨rfl, rfl⟩ := h
  cases item with
  | data byte =>
    rw [Item.encode, scan_escape ⟨rfl, rfl⟩]
    simp [passed, reply?, Item.refusal?]
  | negotiation verb option =>
    cases verb <;> simp [Item.encode, negotiationBytes, Verb.code, Scan.step, passed, reply?,
      Item.refusal?, Verb.refusal, responseVerb]
  | command c =>
    have hff : c.code ≠ 0xff := by
      intro h
      exact absurd (h ▸ c.lt) (by decide)
    have hverb : ¬ (0xfb ≤ c.code ∧ c.code ≤ 0xfe) := by
      rintro ⟨h, -⟩
      exact absurd (UInt8.lt_of_le_of_lt h c.lt) (by decide)
    simp [Item.encode, Scan.step, hff, hverb, passed, reply?, Item.refusal?]
  | subnegotiation contents =>
    have hopen (s : Scan) (hs : s.Idle) : run Scan.step s [0xff, 0xfa] = s := by
      rcases s with ⟨iac, verb, clean, replies⟩
      obtain ⟨rfl, rfl⟩ := hs
      simp [Scan.step]
    have hclose (s : Scan) (hs : s.Idle) : run Scan.step s [0xff, 0xf0] = s := by
      rcases s with ⟨iac, verb, clean, replies⟩
      obtain ⟨rfl, rfl⟩ := hs
      simp [Scan.step]
    rw [Item.encode, Machine.run_append, Machine.run_append, hopen _ ⟨rfl, rfl⟩,
      scan_contents ⟨rfl, rfl⟩, hclose _ ⟨rfl, rfl⟩]
    simp [passed, reply?, Item.refusal?]

theorem scan_items {s : Scan} (h : s.Idle) (items : List Item) :
    run Scan.step s (encode items) =
      { s with
        clean := s.clean ++ items.flatMap passed
        replies := s.replies ++ items.filterMap reply? } := by
  induction items generalizing s with
  | nil => simp [encode]
  | cons item items ih =>
    have h' : ({ s with
        clean := s.clean ++ passed item
        replies := s.replies ++ (reply? item).toList } : Scan).Idle := h
    rw [encode, List.flatMap_cons, Machine.run_append, scan_item h item]
    refine (ih h').trans ?_
    cases hr : reply? item <;> simp [hr]

/-- **The filter on a whole stream.** -/
theorem scan_encode (items : List Item) :
    run Scan.step {} (encode items) =
      { clean := items.flatMap passed, replies := items.filterMap reply? } := by
  rw [scan_items ⟨rfl, rfl⟩]
  simp

/-- The data bytes pass, and besides them the contents of subnegotiations. -/
theorem length_passed (items : List Item) :
    (items.filterMap Item.data?).length ≤ (items.flatMap passed).length := by
  induction items with
  | nil => exact Nat.le_refl 0
  | cons item items ih =>
    rw [List.flatMap_cons, List.length_append]
    cases item with
    | data byte =>
      change (items.filterMap Item.data?).length + 1 ≤ 1 + _
      omega
    | _ =>
      rw [List.filterMap_cons_none rfl]
      omega

theorem passed_eq_data_iff (items : List Item) :
    items.flatMap passed = items.filterMap Item.data? ↔
      ∀ contents, .subnegotiation contents ∈ items → contents = [] := by
  induction items with
  | nil => simp
  | cons item items ih =>
    cases item with
    | subnegotiation contents =>
      rw [List.flatMap_cons, List.filterMap_cons_none rfl]
      constructor
      · intro h
        have hlen := congrArg List.length h
        have hle := length_passed items
        rw [List.length_append] at hlen
        have h0 : contents = [] := List.eq_nil_of_length_eq_zero (by simp only [passed] at hlen; omega)
        subst h0
        intro contents hmem
        rcases List.mem_cons.mp hmem with hmem | hmem
        · exact (Item.subnegotiation.inj hmem)
        · exact ih.mp h contents hmem
      · intro h
        rw [passed, h contents (List.mem_cons_self ..), List.nil_append]
        exact ih.mpr fun c hc => h c (List.mem_cons_of_mem _ hc)
    | data byte =>
      rw [List.flatMap_cons, show (Item.data byte :: items).filterMap Item.data? =
        byte :: items.filterMap Item.data? from rfl]
      simpa [passed] using ih
    | negotiation verb option =>
      rw [List.flatMap_cons, List.filterMap_cons_none rfl]
      simpa [passed] using ih
    | command c =>
      rw [List.flatMap_cons, List.filterMap_cons_none rfl]
      simpa [passed] using ih

/-! ## The other direction -/

/-- The bytes that the decoder has read without a result. -/
def pending : Peer → Nat
  | .iac => 1
  | .verb _ => 2
  | .text | .sub | .subIac => 0

/-- What is decoded takes up room: a data byte 0xff two bytes, a negotiation three. -/
theorem decodeFrom_length (peer : Peer) (s : List UInt8) :
    (decodeFrom peer s).1.length + (decodeFrom peer s).1.count 0xff +
      3 * (decodeFrom peer s).2.length ≤ s.length + pending peer := by
  induction s generalizing peer with
  | nil => cases peer <;> simp [decodeFrom]
  | cons byte s ih =>
    cases peer with
    | text =>
      have hiac := ih .iac
      have htext := ih .text
      simp only [pending] at hiac htext ⊢
      unfold decodeFrom
      split_ifs with hb
      · rw [List.length_cons]
        omega
      · simp only [List.length_cons, List.count_cons, beq_iff_eq, hb, if_false]
        omega
    | iac =>
      have htext := ih .text
      have hsub := ih .sub
      simp only [pending] at htext hsub ⊢
      unfold decodeFrom
      split_ifs with hb
      · simp only [List.length_cons, List.count_cons, beq_self_eq_true, if_true]
        omega
      · rw [List.length_cons]
        omega
      · cases verb? byte with
        | none => rw [List.length_cons]; simp only; omega
        | some verb =>
          have hverb := ih (.verb verb)
          simp only [pending] at hverb
          rw [List.length_cons]
          simp only
          omega
    | verb verb =>
      have htext := ih .text
      simp only [pending] at htext ⊢
      unfold decodeFrom
      simp only [List.length_cons]
      omega
    | sub =>
      have hsub := ih .sub
      have hiac := ih .subIac
      simp only [pending] at hsub hiac ⊢
      unfold decodeFrom
      split_ifs <;> rw [List.length_cons] <;> omega
    | subIac =>
      have htext := ih .text
      have hsub := ih .sub
      simp only [pending] at htext hsub ⊢
      unfold decodeFrom
      split_ifs <;> rw [List.length_cons] <;> omega

theorem verb?_code (verb : Verb) : verb? verb.code = some verb := by
  cases verb <;> rfl

theorem decode_negotiation (p : Verb × UInt8) (s : List UInt8) :
    decode (negotiationBytes p ++ s) = ((decode s).1, p :: (decode s).2) := by
  have hff : p.1.code ≠ 0xff := by cases p.1 <;> decide
  have hfa : p.1.code ≠ 0xfa := by cases p.1 <;> decide
  simp [decode, negotiationBytes, decodeFrom, hff, hfa, verb?_code]

/-- An interleaving of bytes other than 0xff with refusals is decoded. -/
theorem decode_pushed {guest s : List UInt8} {r : List (UInt8 × UInt8)} (h : Pushed guest r s)
    {refusals : List (Verb × UInt8)} (hr : r = refusals.map fun p => (p.1.code, p.2))
    (hff : 0xff ∉ guest) : decode s = (guest, refusals) := by
  induction h generalizing refusals with
  | nil =>
    obtain rfl := List.map_eq_nil_iff.mp hr.symm
    rfl
  | byte b _ ih =>
    rw [List.mem_cons, not_or] at hff
    have hs := ih hr hff.2
    have hb : ¬ b = 0xff := fun h => hff.1 h.symm
    rw [decode] at hs ⊢
    simp [decodeFrom, hb, hs]
  | reply p _ ih =>
    cases refusals with
    | nil => exact absurd hr (by simp)
    | cons q refusals =>
      rw [List.map_cons, List.cons_eq_cons] at hr
      obtain ⟨rfl, hr⟩ := hr
      have hs := ih hr hff
      rw [show replyBytes (q.1.code, q.2) = negotiationBytes q from rfl, decode_negotiation, hs]

/-! ## Transparency -/

/-- **The filter is transparent** for a session that receives the stream of
    `items`, however it is cut: the guest gets the data bytes, and by the telnet
    rules the other side gets the bytes of the guest and one refusal for each
    negotiation, in order.  It is so exactly if every subnegotiation is empty
    and the guest sends no byte 0xff. -/
theorem transparent_iff (items : List Item) (events : List Event)
    (h : received events = encode items) :
    ((run apply { telnet := true } events).incoming = items.filterMap Item.data? ∧
      decode ((run apply { telnet := true } events).written ++
          (run apply { telnet := true } events).outgoing) =
        (sent events, items.filterMap Item.refusal?)) ↔
      (∀ contents, .subnegotiation contents ∈ items → contents = []) ∧ 0xff ∉ sent events := by
  have hf := follows_run events
  rw [h] at hf
  have hincoming := hf.incoming
  have hpushed := hf.pushed
  rw [scan_encode] at hincoming hpushed
  rw [hincoming, passed_eq_data_iff]
  refine and_congr_right fun _ => ?_
  have hreplies : items.filterMap reply? =
      (items.filterMap Item.refusal?).map fun p => (p.1.code, p.2) := by
    rw [List.map_filterMap]
    rfl
  constructor
  · intro hd
    have hlen := decodeFrom_length .text ((run apply { telnet := true } events).written ++
      (run apply { telnet := true } events).outgoing)
    rw [show decodeFrom .text _ = (sent events, items.filterMap Item.refusal?) from hd,
      hpushed.length] at hlen
    have hcount : (sent events).count 0xff = 0 := by
      simp only [pending, hreplies, List.length_map] at hlen
      omega
    exact List.count_eq_zero.mp hcount
  · exact decode_pushed hpushed hreplies

/-- A session that is cut inside a negotiation. -/
theorem transparent_iff_cut :
    ((run apply { telnet := true } [.read [0x61, 0xff], .send 0x62, .read [0xfd], .read [1, 0xff],
        .write, .read [0xff]]).incoming = [0x61, 0xff] ∧
      decode ((run apply { telnet := true } [.read [0x61, 0xff], .send 0x62, .read [0xfd],
          .read [1, 0xff], .write, .read [0xff]]).written ++
          (run apply { telnet := true } [.read [0x61, 0xff], .send 0x62, .read [0xfd],
            .read [1, 0xff], .write, .read [0xff]]).outgoing) = ([0x62], [(.wont, 1)])) ↔
      (∀ contents, .subnegotiation contents ∈
          ([.data 0x61, .negotiation .do_ 1, .data 0xff] : List Item) → contents = []) ∧
        0xff ∉ [(0x62 : UInt8)] :=
  transparent_iff [.data 0x61, .negotiation .do_ 1, .data 0xff] [.read [0x61, 0xff], .send 0x62,
    .read [0xfd], .read [1, 0xff], .write, .read [0xff]] rfl

/-- The contents of a subnegotiation reach the guest, and a byte 0xff that the
    guest sends is lost on the other side with the byte behind it. -/
theorem subnegotiation_passed :
    (run apply { telnet := true } [.read (encode [.subnegotiation [0x18, 0x01]])]).incoming =
        [0x18, 0x01] ∧
      (let c := run apply { telnet := true } [.send 0xff, .send 0x41];
        decode (c.written ++ c.outgoing) = ([], [])) := by
  decide

end TcpConnection

end CuteMac.Modem
