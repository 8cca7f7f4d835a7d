/-
  The reader of the remote protocol (`main.cpp`, `GdbStub`).

  * `Socket`: what has come and was not read, the chunks that are still to come, and what was sent;
  * `readPacket`: a packet out of the chunks; `none` is a reader that waits for good, or whose
    connection has ended;
  * `serve`: the packets of a session.

  A wait takes the next chunk, whatever has come before.
-/
import Mathlib.Data.List.Basic
import Mathlib.Tactic.SplitIfs

namespace CuteMac.Debug

abbrev Bytes := List UInt8

structure Socket where
  buffer : Bytes := []
  incoming : List Bytes
  sent : Bytes := []
  deriving DecidableEq, Repr

/-- What a chunk does to a reader: the payload is complete, or more is needed. -/
inductive Scan
  | packet (data : Bytes)
  | more (inPacket : Bool) (data : Bytes)
  deriving DecidableEq, Repr

def scan (inPacket : Bool) (data : Bytes) : Bytes → Scan
  | [] => .more inPacket data
  | ch :: chunk =>
    if !inPacket then
      if ch = 0x24 then scan true [] chunk else scan false data chunk
    else if ch = 0x23 then .packet data
    else scan true (data ++ [ch]) chunk

/-- Wait for the two characters of the checksum and read them. -/
def readChecksum (buffer sent : Bytes) : List Bytes → Option Socket
  | [] => if 2 ≤ buffer.length then some ⟨buffer.drop 2, [], sent⟩ else none
  | chunk :: incoming =>
    if 2 ≤ buffer.length then some ⟨buffer.drop 2, chunk :: incoming, sent⟩
    else readChecksum (buffer ++ chunk) sent incoming

def readChunks (inPacket : Bool) (data buffer sent : Bytes) : List Bytes → Option (Bytes × Socket)
  | [] => none
  | chunk :: incoming =>
    match scan inPacket data (buffer ++ chunk) with
    | .packet data =>
      (readChecksum [] sent incoming).map fun s => (data, { s with sent := s.sent ++ [0x2b] })
    | .more inPacket data => readChunks inPacket data [] sent incoming

def readPacket (s : Socket) : Option (Bytes × Socket) :=
  readChunks false [] s.buffer s.sent s.incoming

/-! ## A session -/

theorem readChecksum_le {buffer sent : Bytes} {incoming : List Bytes} {s : Socket}
    (h : readChecksum buffer sent incoming = some s) : s.incoming.length ≤ incoming.length := by
  induction incoming generalizing buffer with
  | nil =>
    unfold readChecksum at h
    split_ifs at h
    obtain rfl := Option.some.inj h
    exact Nat.le_refl _
  | cons chunk incoming ih =>
    unfold readChecksum at h
    split_ifs at h
    · obtain rfl := Option.some.inj h
      exact Nat.le_refl _
    · exact Nat.le_succ_of_le (ih h)

theorem readChunks_lt {inPacket : Bool} {data buffer sent packet : Bytes} {incoming : List Bytes}
    {s : Socket} (h : readChunks inPacket data buffer sent incoming = some (packet, s)) :
    s.incoming.length < incoming.length := by
  induction incoming generalizing inPacket data buffer with
  | nil => exact absurd h (by simp [readChunks])
  | cons chunk incoming ih =>
    unfold readChunks at h
    split at h
    · obtain ⟨t, ht, heq⟩ := Option.map_eq_some_iff.1 h
      obtain ⟨-, rfl⟩ := Prod.mk.inj heq
      have hle := readChecksum_le ht
      exact Nat.lt_succ_of_le hle
    · exact Nat.lt_succ_of_lt (ih h)

/-- The packets of a session in order, until one ends it or no more comes. -/
def serve (handlePacket : Bytes → Bool) (s : Socket) : List Bytes :=
  match _h : readPacket s with
  | none => []
  | some (packet, s') => packet :: if handlePacket packet then serve handlePacket s' else []
termination_by s.incoming.length
decreasing_by exact readChunks_lt _h

end CuteMac.Debug
