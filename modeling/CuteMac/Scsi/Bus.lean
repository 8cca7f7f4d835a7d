/-
  SCSI bus transactions, abstractly: the automaton that says which sequences of
  bus events are well formed.

  A transaction starts with the selection of a target on a free bus, collects
  the command bytes, executes the CDB they form once, and moves along
  Bus Free → Command → (Data In | Data Out)? → Status → Message In → Bus Free.
-/
import CuteMac.Scsi.Ncr5380

namespace CuteMac.Scsi

open Ncr5380 (expectedCommandLength)

/-- What the automaton remembers of the current transaction: the command bytes
    accepted since the selection, and whether they have been executed. -/
structure Bus where
  phase : Phase
  selected : Bool
  cdb : List UInt8
  executed : Bool
deriving DecidableEq, Repr

namespace Bus

/-- A free bus. -/
def free : Bus := ⟨.busFree, false, [], false⟩

/-- The phase moves.  Command is entered from a free bus with a target
    selected; entering it again is harmless while no byte has been accepted. -/
def move (b : Bus) : Phase → Option Bus
  | .command =>
    if b.selected ∧ b.cdb = [] ∧ (b.phase = .busFree ∨ b.phase = .command) then
      some { b with phase := .command }
    else none
  | .dataIn => if b.phase = .command ∧ b.executed then some { b with phase := .dataIn } else none
  | .dataOut =>
    if b.phase = .command ∧ !b.executed then some { b with phase := .dataOut } else none
  | .status =>
    if (b.phase = .command ∨ b.phase = .dataIn ∨ b.phase = .dataOut) ∧ b.executed then
      some { b with phase := .status }
    else none
  | .messageIn => if b.phase = .status then some { b with phase := .messageIn } else none
  | .busFree => if b.phase = .messageIn then some free else none

/-- **Well-formed transactions**: `none` is a violation of the protocol. -/
def step {ι : Type} (b : Bus) : BusEvent ι → Option Bus
  | .select _ =>
    if b.phase = .busFree ∧ !b.selected then some { free with selected := true } else none
  | .accept value =>
    if b.phase = .command then some { b with cdb := b.cdb ++ [value] } else none
  | .execute _ cdb _ _ =>
    if (b.phase = .command ∨ b.phase = .dataOut) ∧ !b.executed ∧ cdb = b.cdb ∧ cdb ≠ [] ∧
        cdb.length = expectedCommandLength (byteAt cdb 0) then
      some { b with executed := true }
    else none
  | .phase p => b.move p
  | .reset => some free

end Bus

end CuteMac.Scsi
