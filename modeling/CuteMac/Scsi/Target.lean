/-
  The interface of the SCSI targets (`ScsiTarget.h`), as the controllers see it.

  A controller holds shared references to targets and calls their virtual
  functions.  References are values of a type `ι`; what the referenced objects
  hold together (disk images, sense keys, …) is one value of a type `ω`, which
  `executeCommand` may change.
-/
namespace CuteMac.Scsi

/-- `ScsiCommandResult`; the defaults are those of the struct. -/
structure ScsiCommandResult where
  data : List UInt8 := []
  status : UInt8 := 0
  message : UInt8 := 0
  senseKey : UInt8 := 0
deriving DecidableEq, Repr

/-- The virtual functions of `ScsiTarget` that a controller calls, on the
    target behind a reference. -/
class ScsiTarget (ι : Type) (ω : outParam Type) where
  selectable : ω → ι → Bool
  executeCommand : ω → ι → (cdb dataOut : List UInt8) → ScsiCommandResult × ω

/-- A target that is always there and answers every command alike. -/
structure FixedTarget where
  result : ScsiCommandResult
deriving DecidableEq, Repr

instance : ScsiTarget FixedTarget Unit where
  selectable _ _ := true
  executeCommand _ target _ _ := (target.result, ())

/-- Byte `i` of a byte array, for an index inside it. -/
def byteAt (bytes : List UInt8) (i : Nat) : UInt8 := bytes.getD i 0

theorem byteAt_append {bytes : List UInt8} {i : Nat} (hi : i < bytes.length) (more : List UInt8) :
    byteAt (bytes ++ more) i = byteAt bytes i := by
  simp [byteAt, List.getElem?_append_left hi]

/-- Two bytes of a byte array from index `i`, the high one first. -/
def be16At (bytes : List UInt8) (i : Nat) : Nat :=
  (byteAt bytes i).toNat <<< 8 ||| (byteAt bytes (i + 1)).toNat

end CuteMac.Scsi
