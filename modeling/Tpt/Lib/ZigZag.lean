import Mathlib.Logic.Equiv.Nat
import Mathlib.Tactic

/-!
The zigzag numbering of the integers, 0, -1, 1, -2, 2 and so on, which Mathlib
has as an equivalence.
-/

namespace Tpt

theorem intEquivNat_of_nonneg {number : Int} (nonneg : 0 ≤ number) :
    (Equiv.intEquivNat number : Int) = 2 * number := by
  obtain ⟨natural, rfl⟩ := Int.eq_ofNat_of_zero_le nonneg
  rfl

theorem intEquivNat_of_neg {number : Int} (negative : number < 0) :
    (Equiv.intEquivNat number : Int) = -2 * number - 1 := by
  obtain ⟨natural, rfl⟩ := Int.eq_negSucc_of_lt_zero negative
  change ((2 * natural + 1 : Nat) : Int) = _
  omega

theorem intEquivNat_lt_iff (number : Int) (bound : Nat) :
    Equiv.intEquivNat number < 2 * bound ↔ -(bound : Int) ≤ number ∧ number < bound := by
  rcases lt_or_ge number 0 with negative | nonneg
  · have code := intEquivNat_of_neg negative
    omega
  · have code := intEquivNat_of_nonneg nonneg
    omega

end Tpt
