import Mathlib.Data.Fin.Basic
import Mathlib.Data.Nat.ModEq
import Mathlib.Logic.Function.Basic
import Mathlib.Tactic

/-!
Windows into a ring of cells.

Positions run on without bound; the cell of a position is the position modulo
the size of the ring.
-/

namespace Tpt

universe u

variable {Value : Type u} {size : Nat} [NeZero size]

/-- The values at `length` positions from `start` on. -/
def window (cells : Fin size → Value) : Nat → Nat → List Value
  | _, 0 => []
  | start, length + 1 => cells (Fin.ofNat size start) :: window cells (start + 1) length

@[simp] theorem length_window
    (cells : Fin size → Value) (start length : Nat) :
    (window cells start length).length = length := by
  induction length generalizing start with
  | zero => rfl
  | succ length inductionHypothesis =>
      rw [window, List.length_cons, inductionHypothesis]

theorem window_snoc
    (cells : Fin size → Value) (start length : Nat) :
    window cells start (length + 1) =
      window cells start length ++ [cells (Fin.ofNat size (start + length))] := by
  induction length generalizing start with
  | zero => rfl
  | succ length inductionHypothesis =>
      rw [window, inductionHypothesis (start + 1), window, List.cons_append,
        Nat.add_assoc start 1 length, Nat.add_comm 1 length]

omit [NeZero size] in
/-- Less than one round apart, two positions have different cells. -/
theorem mod_add_ne
    {start distance : Nat} (positive : 0 < distance) (small : distance < size) :
    (start + distance) % size ≠ start % size := by
  intro same
  have congruent : start + distance ≡ start + 0 [MOD size] := same
  have divides : distance % size = 0 % size := congruent.add_left_cancel' start
  rw [Nat.mod_eq_of_lt small, Nat.zero_mod] at divides
  exact absurd divides (Nat.ne_of_gt positive)

theorem window_update
    (cells : Fin size → Value) (value : Value) {start length : Nat} (room : length < size) :
    window (Function.update cells (Fin.ofNat size (start + length)) value) start length =
      window cells start length := by
  induction length generalizing start with
  | zero => rfl
  | succ length inductionHypothesis =>
      have other : Fin.ofNat size start ≠ Fin.ofNat size (start + (length + 1)) := by
        intro same
        exact mod_add_ne (Nat.succ_pos length) room (congrArg Fin.val same).symm
      have shifted : start + (length + 1) = start + 1 + length := by
        rw [Nat.add_assoc, Nat.add_comm 1 length]
      rw [window, window, Function.update_of_ne other, shifted,
        inductionHypothesis (Nat.lt_of_succ_lt room)]

theorem window_push
    (cells : Fin size → Value) (value : Value) {start length : Nat} (room : length < size) :
    window (Function.update cells (Fin.ofNat size (start + length)) value) start (length + 1) =
      window cells start length ++ [value] := by
  rw [window_snoc, window_update cells value room, Function.update_self]

end Tpt
