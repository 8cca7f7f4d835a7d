/-
  Packets of the remote protocol that come in chunks.

  * `Frame`: a packet with the acknowledgements behind it; `Delivery`: packets in chunks;
  * `ReturnsAll`: the calls return the payloads, each as soon as its checksum has come, and leave
    every byte of the later packets;
  * `Aligned`: a chunk ends behind the `#` of every packet, and one before it;
  * `returnsAll_iff`: the calls do so exactly then.
-/
import CuteMac.Debug.GdbStub
import CuteMac.Lib.Chunks

namespace CuteMac.Debug

open Chunks

/-! ## Packets -/

def isAck (c : UInt8) : Bool := c == 0x2b || c == 0x2d

def isHexDigit (c : UInt8) : Bool :=
  (0x30 ≤ c && c ≤ 0x39) || (0x41 ≤ c && c ≤ 0x46) || (0x61 ≤ c && c ≤ 0x66)

/-- A packet, with the acknowledgements that follow it. -/
structure Frame where
  payload : Bytes
  first : UInt8
  second : UInt8
  acks : Bytes
  payload_plain : ∀ c ∈ payload, c ≠ 0x24 ∧ c ≠ 0x23
  first_digit : isHexDigit first = true
  second_digit : isHexDigit second = true
  acks_only : ∀ c ∈ acks, isAck c = true

namespace Frame

/-- What follows the `#`. -/
def tail (f : Frame) : Bytes := f.first :: f.second :: f.acks

def bytes (f : Frame) : Bytes := 0x24 :: (f.payload ++ 0x23 :: f.tail)

end Frame

def stream (fs : List Frame) : Bytes := fs.flatMap Frame.bytes

/-- Packets with acknowledgements before and between them, as they come in chunks. -/
structure Delivery where
  lead : Bytes
  frames : List Frame
  chunks : List Bytes
  lead_only : ∀ c ∈ lead, isAck c = true
  chunks_ne : ∀ c ∈ chunks, c ≠ []
  flatten_chunks : chunks.flatten = lead ++ stream frames

/-! ## What the calls should do -/

/-- The bytes of the stream before its last `n` that have not come. -/
def Socket.missing (s : Socket) (n : ℕ) : ℕ := s.incoming.flatten.length - n

/-- Successive calls return the payloads and then wait. Each returns when the checksum has come,
    and leaves what belongs to the later packets. -/
def ReturnsAll : List Frame → Socket → Prop
  | [], s => readPacket s = none
  | f :: fs, s =>
    ∃ s', readPacket s = some (f.payload, s')
      ∧ s'.incoming = after (s.missing (f.acks ++ stream fs).length) s.incoming
      ∧ stream fs <:+ s'.buffer ++ s'.incoming.flatten
      ∧ ReturnsAll fs s'

/-- Where the chunks end. The checksum of the packet before ends at `start`, and `gap`
    acknowledgements follow it. Behind the `#` a chunk ends, and one ended before the `#`; or it
    ends between the digits, no chunk ends behind them, and an acknowledgement is there to be lost. -/
def Aligned (chunks : List Bytes) : ℕ → ℕ → List Frame → Prop
  | _, _, [] => True
  | start, gap, f :: fs =>
    let hash := start + gap + 1 + f.payload.length
    (((∃ c, EndsAt chunks c ∧ start ≤ c ∧ c ≤ hash) ∧ EndsAt chunks (hash + 1))
      ∨ ((∃ c, EndsAt chunks c ∧ start ≤ c ∧ c ≤ hash + 1) ∧ EndsAt chunks (hash + 2)
        ∧ ¬EndsAt chunks (hash + 3) ∧ f.acks ≠ []))
      ∧ Aligned chunks (hash + 3) f.acks.length fs

/-! ## One chunk -/

section
variable {i i' : Bool} {d d' p u v acks rest : Bytes}

theorem scan_append_packet (h : scan i d u = .packet p) : scan i d (u ++ v) = .packet p := by
  induction u generalizing i d with
  | nil => exact absurd h (by simp [scan])
  | cons c u ih =>
    rw [List.cons_append]
    unfold scan at h ⊢
    split_ifs at h ⊢
    · exact ih h
    · exact ih h
    · exact h
    · exact ih h

theorem scan_append_more (h : scan i d u = .more i' d') : scan i d (u ++ v) = scan i' d' v := by
  induction u generalizing i d with
  | nil =>
    unfold scan at h
    obtain ⟨rfl, rfl⟩ := Scan.more.inj h
    rfl
  | cons c u ih =>
    rw [List.cons_append]
    unfold scan at h
    conv_lhs => unfold scan
    split_ifs at h ⊢
    · exact ih h
    · exact ih h
    · exact ih h

/-- Without a `#` a reader needs more. -/
theorem scan_more (h : ∀ c ∈ u, c ≠ 0x23) (i : Bool) (d : Bytes) : ∃ i' d', scan i d u = .more i' d' := by
  induction u generalizing i d with
  | nil => exact ⟨i, d, rfl⟩
  | cons c u ih =>
    rw [List.forall_mem_cons] at h
    unfold scan
    split_ifs with h1 h2 h3
    · exact ih h.2 true []
    · exact ih h.2 false d
    · exact absurd h3 h.1
    · exact ih h.2 true (d ++ [c])

/-- Outside of a packet acknowledgements are passed. -/
theorem scan_acks (h : ∀ c ∈ acks, isAck c = true) : scan false [] acks = .more false [] := by
  induction acks with
  | nil => rfl
  | cons c acks ih =>
    rw [List.forall_mem_cons] at h
    have hc : c ≠ 0x24 := by
      rintro rfl
      exact absurd h.1 (by decide)
    unfold scan
    rw [if_pos (by decide), if_neg hc]
    exact ih h.2

theorem scan_payload (h : ∀ c ∈ p, c ≠ 0x24 ∧ c ≠ 0x23) (d : Bytes) :
    scan true d (p ++ 0x23 :: rest) = .packet (d ++ p) := by
  induction p generalizing d with
  | nil =>
    rw [List.append_nil]
    rfl
  | cons c p ih =>
    rw [List.forall_mem_cons] at h
    rw [List.cons_append]
    unfold scan
    rw [if_neg (by decide), if_neg h.1.2, ih h.2, List.append_assoc]
    rfl

theorem scan_frame (f : Frame) (h : ∀ c ∈ acks, isAck c = true) :
    scan false [] (acks ++ (0x24 :: (f.payload ++ [0x23]) ++ rest)) = .packet f.payload := by
  rw [scan_append_more (scan_acks h), List.cons_append, List.append_assoc]
  exact scan_payload f.payload_plain []

/-! ## The chunks of a packet -/

theorem readChecksum_some (buffer sent : Bytes) (cs : List Bytes)
    (h : 2 ≤ (buffer ++ cs.flatten).length) :
    ∃ b', readChecksum buffer sent cs = some ⟨b', after (2 - buffer.length) cs, sent⟩
      ∧ b' ++ (after (2 - buffer.length) cs).flatten = (buffer ++ cs.flatten).drop 2 := by
  induction cs generalizing buffer with
  | nil =>
    rw [List.flatten_nil, List.append_nil] at h
    refine ⟨buffer.drop 2, ?_, by simp [after]⟩
    unfold readChecksum
    rw [if_pos h]
    rfl
  | cons c cs ih =>
    unfold readChecksum after
    by_cases hb : 2 ≤ buffer.length
    · refine ⟨buffer.drop 2, ?_, ?_⟩
      · rw [if_pos hb, if_pos (by omega)]
      · rw [if_pos (by omega), List.drop_append_of_le_length hb]
    · rw [List.flatten_cons, ← List.append_assoc] at h ⊢
      obtain ⟨b', hread, hbytes⟩ := ih _ h
      have hcount : 2 - (buffer ++ c).length = 2 - buffer.length - c.length := by
        rw [List.length_append]
        omega
      rw [hcount] at hread hbytes
      refine ⟨b', ?_, ?_⟩
      · rw [if_neg hb, if_neg (by omega), hread]
      · rw [if_neg (by omega), hbytes]

theorem readChecksum_none {buffer sent : Bytes} {cs : List Bytes}
    (h : (buffer ++ cs.flatten).length < 2) : readChecksum buffer sent cs = none := by
  induction cs generalizing buffer with
  | nil =>
    rw [List.flatten_nil, List.append_nil] at h
    unfold readChecksum
    rw [if_neg (by omega)]
  | cons c cs ih =>
    have hb := h
    rw [List.length_append] at hb
    unfold readChecksum
    rw [if_neg (by omega)]
    refine ih ?_
    rwa [List.flatten_cons, ← List.append_assoc] at h

theorem readChunks_more {b sent : Bytes} (h : scan i d b = .more i' d') (cs : List Bytes) :
    readChunks i' d' [] sent cs = readChunks i d b sent cs := by
  cases cs with
  | nil => rfl
  | cons c cs =>
    unfold readChunks
    rw [scan_append_more h, List.nil_append]

/-- The chunks are read up to the one with the `#`; the checksum is read behind that chunk. -/
theorem readChunks_frame (f : Frame) (sent : Bytes) (hacks : ∀ c ∈ acks, isAck c = true) {b : Bytes}
    {cs : List Bytes} (hne : ∀ c ∈ cs, c ≠ [])
    (h : b ++ cs.flatten = acks ++ (0x24 :: (f.payload ++ [0x23]) ++ rest)) :
    readChunks false [] b sent cs
      = (readChecksum [] sent (after (max 1 (acks.length + f.payload.length + 2 - b.length)) cs)).map
          fun s => (f.payload, { s with sent := s.sent ++ [0x2b] }) := by
  induction cs generalizing b with
  | nil => rfl
  | cons c cs ih =>
    rw [List.forall_mem_cons] at hne
    have hpos : 0 < c.length := List.length_pos_iff.2 hne.1
    have hwhole : (b ++ c) ++ cs.flatten = acks ++ (0x24 :: (f.payload ++ [0x23]) ++ rest) := by
      rw [← h, List.flatten_cons, List.append_assoc]
    have hlength : (acks ++ 0x24 :: (f.payload ++ [0x23])).length
        = acks.length + f.payload.length + 2 := by
      simp
      omega
    rw [← List.append_assoc acks] at hwhole
    unfold after
    rw [if_neg (by omega)]
    rcases Nat.lt_or_ge (b ++ c).length (acks.length + f.payload.length + 2) with hlt | hge
    · -- The `#` has not come.
      have hcome : b ++ c = (acks ++ 0x24 :: f.payload).take (b ++ c).length := by
        have hshape : (acks ++ 0x24 :: (f.payload ++ [0x23])) ++ rest
            = (acks ++ 0x24 :: f.payload) ++ (0x23 :: rest) := by simp
        have htake := congrArg (List.take (b ++ c).length) hwhole
        rw [List.take_left, hshape, List.take_append_of_le_length (by simp at hlt ⊢; omega)] at htake
        exact htake
      have hplain : ∀ e ∈ b ++ c, e ≠ 0x23 := by
        intro e he
        rw [hcome] at he
        have hmem := List.mem_of_mem_take he
        rw [List.mem_append, List.mem_cons] at hmem
        rintro rfl
        rcases hmem with hmem | hmem | hmem
        · exact absurd (hacks _ hmem) (by decide)
        · exact absurd hmem (by decide)
        · exact (f.payload_plain _ hmem).2 rfl
      obtain ⟨i', d', hscan⟩ := scan_more hplain false []
      have hcount : max 1 (acks.length + f.payload.length + 2 - b.length) - c.length
          = max 1 (acks.length + f.payload.length + 2 - (b ++ c).length) := by
        rw [List.length_append] at hlt ⊢
        omega
      rw [hcount, ← ih hne.2 (by rw [hwhole, List.append_assoc]), ← readChunks_more hscan]
      conv_lhs => unfold readChunks
      rw [hscan]
    · obtain ⟨u, hu⟩ : ∃ u, b ++ c = (acks ++ 0x24 :: (f.payload ++ [0x23])) ++ u := by
        have htake := congrArg (List.take (acks ++ 0x24 :: (f.payload ++ [0x23])).length) hwhole
        rw [List.take_left, List.take_append_of_le_length (by omega)] at htake
        refine ⟨(b ++ c).drop (acks ++ 0x24 :: (f.payload ++ [0x23])).length, ?_⟩
        conv_lhs => rw [← List.take_append_drop (acks ++ 0x24 :: (f.payload ++ [0x23])).length (b ++ c),
          htake]
      have hcount : max 1 (acks.length + f.payload.length + 2 - b.length) - c.length = 0 := by
        rw [List.length_append] at hge
        omega
      rw [hcount, after_zero]
      unfold readChunks
      rw [hu, List.append_assoc, scan_frame f hacks]

/-! ## Positions in the stream -/

/-- A reader before a packet: the checksum of the packet before ends at `start`, and the reader has
    taken some of the acknowledgements `lead` behind it. -/
structure Between (chunks : List Bytes) (start : ℕ) (lead : Bytes) (fs : List Frame) (s : Socket) :
    Prop where
  start_le : start ≤ chunks.flatten.length
  incoming : s.incoming = after start chunks
  lead_only : ∀ c ∈ lead, isAck c = true
  drop_start : chunks.flatten.drop start = lead ++ stream fs
  taken : ∃ l ≤ lead.length, s.buffer ++ s.incoming.flatten = lead.drop l ++ stream fs

/-- After the last packet the reader waits. -/
theorem readChunks_acks {b sent : Bytes} {cs : List Bytes}
    (h : ∀ c ∈ b ++ cs.flatten, isAck c = true) : readChunks false [] b sent cs = none := by
  induction cs generalizing b with
  | nil => rfl
  | cons c cs ih =>
    rw [List.flatten_cons, ← List.append_assoc, List.forall_mem_append] at h
    unfold readChunks
    rw [scan_acks h.1]
    exact ih (by rw [List.nil_append]; exact h.2)

theorem length_stream_cons (f : Frame) (fs : List Frame) :
    (stream (f :: fs)).length = f.payload.length + 4 + f.acks.length + (stream fs).length := by
  unfold stream
  rw [List.flatMap_cons, List.length_append]
  simp [Frame.bytes, Frame.tail]
  omega

variable {chunks : List Bytes} {start hash n : ℕ} {lead : Bytes} {f : Frame} {fs : List Frame}
  {s : Socket}

/-- The end of the chunk with the `#`, which is not the chunk with the checksum before it. -/
def stop (chunks : List Bytes) (start hash : ℕ) : ℕ :=
  reached (max (reached start chunks + 1) (hash + 1)) chunks

theorem max_le_length {chunks : List Bytes} (start hash : ℕ) (h : stop chunks start hash < chunks.flatten.length) :
    max (reached start chunks + 1) (hash + 1) ≤ chunks.flatten.length := by
  by_contra hover
  have hall : stop chunks start hash = chunks.flatten.length := reached_of_length_le (by omega)
  omega

theorem max_le_stop {chunks : List Bytes} (start hash : ℕ) (h : stop chunks start hash < chunks.flatten.length) :
    max (reached start chunks + 1) (hash + 1) ≤ stop chunks start hash :=
  le_reached (max_le_length start hash h)

/-- A reader that stops in time has not taken the checksum before. -/
theorem reached_le_checksum (hin : stop chunks start hash + 2 ≤ chunks.flatten.length)
    (hsame : reached (stop chunks start hash + 2) chunks
      = reached (max (reached start chunks) (hash + 3)) chunks) :
    max (reached start chunks) (hash + 3) = hash + 3 := by
  by_contra hne
  have hstop : max (reached start chunks + 1) (hash + 1) ≤ stop chunks start hash :=
      max_le_stop start hash (by omega)
  have hnext := le_reached hin
  have hback := (endsAt_iff (reached_le_length start chunks)).1 (endsAt_reached start chunks)
  rw [hsame, max_eq_left (by omega), hback] at hnext
  omega

/-- A call ends with the two bytes behind the chunk with the `#`. -/
theorem readPacket_between (hne : ∀ c ∈ chunks, c ≠ []) (h : Between chunks start lead (f :: fs) s)
    (hhash : hash = start + lead.length + 1 + f.payload.length) :
    (stop chunks start hash + 2 ≤ chunks.flatten.length → ∃ s', readPacket s = some (f.payload, s')
        ∧ s'.incoming = after (stop chunks start hash + 2) chunks
        ∧ s'.buffer ++ s'.incoming.flatten = chunks.flatten.drop (stop chunks start hash + 2))
      ∧ (chunks.flatten.length < stop chunks start hash + 2 → readPacket s = none) := by
  obtain ⟨l, hl, htaken⟩ := h.taken
  have hflatten : (after start chunks).flatten = chunks.flatten.drop (reached start chunks) :=
    flatten_after _ _
  have hcome := length_after start chunks
  have hreached := reached_le_length start chunks
  have hwhole := congrArg List.length h.drop_start
  have hrest := congrArg List.length htaken
  rw [h.incoming] at hrest
  rw [List.length_drop, List.length_append, length_stream_cons] at hwhole
  rw [List.length_append, List.length_append, List.length_drop, length_stream_cons] at hrest
  have hstart := h.start_le
  have hshape : s.buffer ++ s.incoming.flatten
      = lead.drop l ++ (0x24 :: (f.payload ++ [0x23]) ++ (f.tail ++ stream fs)) := by
    rw [htaken]
    unfold stream
    rw [List.flatMap_cons]
    simp [Frame.bytes]
  have hchunks : ∀ c ∈ s.incoming, c ≠ [] := by
    rw [h.incoming]
    exact fun c hc => hne c (mem_of_mem_after hc)
  have hcount : reached start chunks
        + max 1 ((lead.drop l).length + f.payload.length + 2 - s.buffer.length)
      = max (reached start chunks + 1) (hash + 1) := by
    rw [List.length_drop]
    omega
  have hread := readChunks_frame f s.sent
    (fun c hc => h.lead_only c (List.mem_of_mem_drop hc)) hchunks hshape
  rw [h.incoming, after_after h.start_le, hcount, ← h.incoming] at hread
  have hbehind : (after (max (reached start chunks + 1) (hash + 1)) chunks).flatten
      = chunks.flatten.drop (stop chunks start hash) := flatten_after _ _
  constructor
  · intro hin
    have hmax : max (reached start chunks + 1) (hash + 1) ≤ chunks.flatten.length :=
      max_le_length start hash (by omega)
    obtain ⟨b', hchecksum, hbytes⟩ := readChecksum_some [] s.sent
      (after (max (reached start chunks + 1) (hash + 1)) chunks) (by
        rw [List.nil_append, hbehind, List.length_drop]
        omega)
    rw [List.nil_append, hbehind, List.drop_drop] at hbytes
    rw [hchecksum] at hread
    rw [after_after hmax] at hread hbytes
    exact ⟨_, hread, rfl, hbytes⟩
  · intro hout
    rw [readChecksum_none (by rw [List.nil_append, hbehind, List.length_drop]; omega)] at hread
    exact hread

/-- The two bytes are the checksum, or the second digit and an acknowledgement. -/
theorem stop_iff (hstart : start ≤ chunks.flatten.length)
    (hn : hash + 3 + n ≤ chunks.flatten.length) :
    (stop chunks start hash + 2 ≤ chunks.flatten.length
        ∧ reached (stop chunks start hash + 2) chunks
          = reached (max (reached start chunks) (hash + 3)) chunks
        ∧ stop chunks start hash ≤ hash + 1 + n)
      ↔ ((∃ c, EndsAt chunks c ∧ start ≤ c ∧ c ≤ hash) ∧ EndsAt chunks (hash + 1))
        ∨ ((∃ c, EndsAt chunks c ∧ start ≤ c ∧ c ≤ hash + 1) ∧ EndsAt chunks (hash + 2)
          ∧ ¬EndsAt chunks (hash + 3) ∧ 0 < n) := by
  rw [exists_endsAt_iff hstart, exists_endsAt_iff hstart]
  have hreached := reached_le_length start chunks
  have hend : EndsAt chunks (stop chunks start hash) := endsAt_reached _ _
  constructor
  · rintro ⟨hin, hsame, hle⟩
    have hstop : max (reached start chunks + 1) (hash + 1) ≤ stop chunks start hash :=
      max_le_stop start hash (by omega)
    have hnext := le_reached hin
    rcases Nat.lt_trichotomy (stop chunks start hash) (hash + 2) with hlt | heq | hgt
    · have heq : stop chunks start hash = hash + 1 := by omega
      exact Or.inl ⟨by omega, heq ▸ hend⟩
    · refine Or.inr ⟨by omega, heq ▸ hend, fun hthree => ?_, by omega⟩
      have hthree := reached_le hthree (p := max (reached start chunks) (hash + 3)) (by omega)
      omega
    · have hfour := reached_le hend (p := max (reached start chunks) (hash + 3)) (by omega)
      omega
  · intro h
    by_cases hone : reached start chunks ≤ hash ∧ EndsAt chunks (hash + 1)
    · have hstop : stop chunks start hash = hash + 1 := by
        unfold stop
        rw [max_eq_right (by omega)]
        exact (endsAt_iff hone.2.le_length).1 hone.2
      rw [hstop, max_eq_right (by omega)]
      exact ⟨by omega, rfl, by omega⟩
    · obtain ⟨hle, htwo, hthree, hpos⟩ := h.resolve_left hone
      have hlow : max (reached start chunks + 1) (hash + 1) ≤ stop chunks start hash :=
        le_reached (by omega)
      have hhigh : stop chunks start hash ≤ hash + 2 := reached_le htwo (by omega)
      have hstop : stop chunks start hash = hash + 2 := by
        by_contra hne
        have heq : stop chunks start hash = hash + 1 := by omega
        exact hone ⟨by omega, heq ▸ hend⟩
      have hfour : hash + 4 ≤ reached (hash + 3) chunks := by
        have hge : hash + 3 ≤ reached (hash + 3) chunks := le_reached (by omega)
        have hneq : reached (hash + 3) chunks ≠ hash + 3 := fun heq =>
          hthree ((endsAt_iff (by omega)).2 heq)
        omega
      have hge : hash + 4 ≤ reached (hash + 4) chunks := le_reached (by omega)
      have hsame : reached (hash + 2 + 2) chunks = reached (hash + 3) chunks :=
        Nat.le_antisymm (reached_le (endsAt_reached _ _) hfour)
          (reached_le (endsAt_reached _ _) (le_trans (by omega) hge))
      rw [hstop, max_eq_right (by omega)]
      exact ⟨by omega, hsame, by omega⟩

theorem returnsAll_between (hne : ∀ c ∈ chunks, c ≠ []) :
    ∀ {start : ℕ} {lead : Bytes} {s : Socket}, Between chunks start lead fs s →
      (ReturnsAll fs s ↔ Aligned chunks start lead.length fs) := by
  induction fs with
  | nil =>
    intro start lead s h
    refine iff_of_true (readChunks_acks ?_) trivial
    obtain ⟨l, -, htaken⟩ := h.taken
    rw [htaken]
    intro c hc
    rw [List.mem_append] at hc
    rcases hc with hc | hc
    · exact h.lead_only c (List.mem_of_mem_drop hc)
    · exact absurd hc (List.not_mem_nil)
  | cons f fs ih =>
    intro start lead s h
    obtain ⟨hash, hhash⟩ : ∃ hash, hash = start + lead.length + 1 + f.payload.length := ⟨_, rfl⟩
    have hwhole := congrArg List.length h.drop_start
    rw [List.length_drop, List.length_append, length_stream_cons] at hwhole
    have hstart := h.start_le
    have hbehind : chunks.flatten.drop (hash + 3) = f.acks ++ stream fs := by
      have hshape : lead ++ stream (f :: fs)
          = (lead ++ 0x24 :: (f.payload ++ [0x23, f.first, f.second])) ++ (f.acks ++ stream fs) := by
        unfold stream
        rw [List.flatMap_cons]
        simp [Frame.bytes, Frame.tail]
      have hplace : hash + 3
          = start + (lead ++ 0x24 :: (f.payload ++ [0x23, f.first, f.second])).length := by
        simp
        omega
      rw [hplace, ← List.drop_drop, h.drop_start, hshape, List.drop_left]
    have hreached := reached_le_length start chunks
    have hmissing : after (s.missing (f.acks ++ stream fs).length) s.incoming
        = after (max (reached start chunks) (hash + 3)) chunks := by
      unfold Socket.missing
      rw [h.incoming, after_after hstart, length_after, List.length_append]
      congr 1
      omega
    have hnext : ∀ s', s'.incoming = after (stop chunks start hash + 2) chunks →
        s'.buffer ++ s'.incoming.flatten = chunks.flatten.drop (stop chunks start hash + 2) →
        after (stop chunks start hash + 2) chunks = after (hash + 3) chunks →
        hash + 1 ≤ stop chunks start hash → stop chunks start hash ≤ hash + 1 + f.acks.length →
        Between chunks (hash + 3) f.acks fs s' := by
      intro s' hincoming hbytes hsame hlow hhigh
      refine ⟨by omega, hincoming.trans hsame, f.acks_only, hbehind,
        stop chunks start hash - (hash + 1), by omega, ?_⟩
      have hplace : stop chunks start hash + 2 = hash + 3 + (stop chunks start hash - (hash + 1)) := by
        omega
      rw [hbytes, hplace, ← List.drop_drop, hbehind, List.drop_append_of_le_length (by omega)]
    have hcond : Aligned chunks start lead.length (f :: fs)
        ↔ (((∃ c, EndsAt chunks c ∧ start ≤ c ∧ c ≤ hash) ∧ EndsAt chunks (hash + 1))
          ∨ ((∃ c, EndsAt chunks c ∧ start ≤ c ∧ c ≤ hash + 1) ∧ EndsAt chunks (hash + 2)
            ∧ ¬EndsAt chunks (hash + 3) ∧ 0 < f.acks.length))
          ∧ Aligned chunks (hash + 3) f.acks.length fs := by
      rw [hhash, List.length_pos_iff]
      rfl
    have hn : hash + 3 + f.acks.length ≤ chunks.flatten.length := by omega
    rw [hcond, ← stop_iff hstart hn]
    clear hcond
    constructor
    · rintro ⟨s', hread, hincoming, hsuffix, hrest⟩
      have hin : stop chunks start hash + 2 ≤ chunks.flatten.length := by
        by_contra hout
        rw [(readPacket_between hne h hhash).2 (by omega)] at hread
        exact absurd hread.symm (by simp)
      obtain ⟨s'', hread', hincoming', hbytes⟩ := (readPacket_between hne h hhash).1 hin
      obtain rfl : s'' = s' := by
        rw [hread] at hread'
        exact ((Prod.mk.inj (Option.some.inj hread')).2).symm
      rw [hmissing, hincoming'] at hincoming
      have hstop : max (reached start chunks + 1) (hash + 1) ≤ stop chunks start hash :=
      max_le_stop start hash (by omega)
      have hhigh : stop chunks start hash ≤ hash + 1 + f.acks.length := by
        have hle := hsuffix.length_le
        rw [hbytes, List.length_drop] at hle
        omega
      have hmax : max (reached start chunks) (hash + 3) ≤ chunks.flatten.length := by omega
      have hsame := (after_eq_iff hin hmax).1 hincoming
      rw [reached_le_checksum hin hsame] at hincoming
      exact ⟨⟨hin, hsame, hhigh⟩,
        (ih (hnext s'' hincoming' hbytes hincoming (by omega) hhigh)).1 hrest⟩
    · rintro ⟨⟨hin, hsame, hhigh⟩, hrest⟩
      have hstop : max (reached start chunks + 1) (hash + 1) ≤ stop chunks start hash :=
      max_le_stop start hash (by omega)
      obtain ⟨s', hread, hincoming, hbytes⟩ := (readPacket_between hne h hhash).1 hin
      have hmax : max (reached start chunks) (hash + 3) ≤ chunks.flatten.length := by omega
      have hafter := (after_eq_iff hin hmax).2 hsame
      have hbetween : Between chunks (hash + 3) f.acks fs s' := by
        rw [reached_le_checksum hin hsame] at hafter
        exact hnext s' hincoming hbytes hafter (by omega) hhigh
      obtain ⟨l, -, htaken⟩ := hbetween.taken
      exact ⟨s', hread, by rw [hmissing, ← hafter, hincoming], ⟨_, htaken.symm⟩, (ih hbetween).2 hrest⟩

end

/-- The calls return every packet in time exactly where the chunks end as they should. -/
theorem returnsAll_iff (d : Delivery) :
    ReturnsAll d.frames ⟨[], d.chunks, []⟩ ↔ Aligned d.chunks 0 d.lead.length d.frames := by
  refine returnsAll_between d.chunks_ne ⟨Nat.zero_le _, (after_zero _).symm, d.lead_only, ?_, 0,
    Nat.zero_le _, ?_⟩
  · exact d.flatten_chunks
  · exact d.flatten_chunks

/-- `$?#3f` in one chunk. -/
def oneChunk : Delivery where
  lead := []
  frames := [⟨[0x3f], 0x33, 0x66, [], List.forall_mem_singleton.2 (by decide), by decide, by decide,
    List.forall_mem_nil _⟩]
  chunks := [[0x24, 0x3f, 0x23, 0x33, 0x66]]
  lead_only := List.forall_mem_nil _
  chunks_ne := List.forall_mem_singleton.2 (List.cons_ne_nil _ _)
  flatten_chunks := rfl

/-- The checksum that came with its packet is lost, and the reader waits for another. -/
theorem checksum_lost : ¬∀ d : Delivery, ReturnsAll d.frames ⟨[], d.chunks, []⟩ := by
  intro h
  obtain ⟨s, hread, -⟩ := h oneChunk
  have hnone : readPacket ⟨[], oneChunk.chunks, []⟩ = none := by decide
  rw [hnone] at hread
  exact absurd hread.symm (by simp)

/-- A session that no packet ends handles what the calls return. -/
theorem serve_returnsAll {fs : List Frame} {s : Socket} (h : ReturnsAll fs s) :
    serve (fun _ => true) s = fs.map Frame.payload := by
  induction fs generalizing s with
  | nil =>
    unfold serve
    split
    · rfl
    · rename_i hread
      rw [show readPacket s = none from h] at hread
      exact absurd hread.symm (by simp)
  | cons f fs ih =>
    obtain ⟨s', hread, -, -, hrest⟩ := h
    unfold serve
    split
    · rename_i hnone
      rw [hread] at hnone
      exact absurd hnone (by simp)
    · rename_i packet t hsome
      rw [hread] at hsome
      obtain ⟨rfl, rfl⟩ := Prod.mk.inj (Option.some.inj hsome)
      rw [if_pos rfl, ih hrest]
      rfl

end CuteMac.Debug
