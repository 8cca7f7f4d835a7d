/-
  The sizes of banks of registers, channels and color components.

  A numeral of `Fin n` rests on a proof that `n` is not zero; these are the proofs for
  the sizes in use, so that every module writes the same terms.
-/
import Mathlib.Algebra.GroupWithZero.Nat

namespace BankSizes

instance neZero_two : NeZero 2 := ⟨by decide⟩

instance neZero_three : NeZero 3 := ⟨by decide⟩

instance neZero_eight : NeZero 8 := ⟨by decide⟩

instance neZero_sixteen : NeZero 16 := ⟨by decide⟩

end BankSizes
