import Tpt.Lib.ZigZag

/-!
The codec of `zigzag.c`.

Shifts of an `int64_t` are those of two's complement, and a conversion between
the signed and the unsigned type keeps the word.
-/

namespace Tpt

namespace ZigZag

def zigzagEncodeInt64 (num : Int64) : UInt64 := ((num <<< 1) ^^^ (num >>> 63)).toUInt64

def zigzagDecodeUInt64 (num : UInt64) : Int64 := ((num >>> 1) ^^^ (-(num &&& 1))).toInt64

/-- `main`, for the numbers in its array: what its two loops print. -/
def main (numArr : List Int64) : List (Int64 × UInt64) × List (UInt64 × Int64) :=
  let zigzagArr := numArr.map zigzagEncodeInt64
  (numArr.zip zigzagArr, zigzagArr.map fun tmp => (tmp, zigzagDecodeUInt64 tmp))

theorem shiftRight_63 (num : Int64) : num >>> 63 = if 0 ≤ num.toInt then 0 else -1 := by
  have above := num.le_toInt
  have below := num.toInt_lt
  have shifted : (num >>> 63).toInt = num.toInt / 2 ^ 63 := by
    rw [← Int64.toInt_toBitVec, Int64.toBitVec_shiftRight]
    exact (BitVec.toInt_sshiftRight).trans (Int.shiftRight_eq_div_pow _ _)
  refine Int64.toInt.inj ?_
  rw [shifted]
  split_ifs with nonneg
  · rw [Int64.toInt_zero]
    omega
  · change _ = -1
    omega

theorem toNat_shiftLeft_1 (num : Int64) :
    ((num <<< 1).toUInt64.toNat : Int) = 2 * num.toInt % 2 ^ 64 := by
  have doubled : (num <<< 1).toUInt64.toNat = 2 * num.toBitVec.toNat % 2 ^ 64 := by
    change (num.toBitVec <<< 1).toNat = _
    rw [BitVec.toNat_shiftLeft, Nat.shiftLeft_eq, Nat.mul_comm]
  have signed := BitVec.toInt_eq_toNat_cond num.toBitVec
  rw [Int64.toInt_toBitVec] at signed
  split_ifs at signed <;> omega

theorem toNat_zigzagEncodeInt64 (num : Int64) :
    (zigzagEncodeInt64 num).toNat = Equiv.intEquivNat num.toInt := by
  have above := num.le_toInt
  have below := num.toInt_lt
  have doubled := toNat_shiftLeft_1 num
  rw [zigzagEncodeInt64, shiftRight_63]
  split_ifs with nonneg
  · have code := intEquivNat_of_nonneg nonneg
    rw [Int64.xor_zero]
    omega
  · have code := intEquivNat_of_neg (Int.not_le.mp nonneg)
    rw [Int64.xor_neg_one, Int64.toUInt64_not, UInt64.toNat_not]
    change UInt64.size - 1 - _ = _
    rw [UInt64.size]
    omega

theorem toInt_shiftRight_1 (num : UInt64) : (num >>> 1).toInt64.toInt = num.toNat / 2 := by
  have below := num.toNat_lt
  have halved : (num >>> 1).toNat = num.toNat / 2 := by
    rw [UInt64.toNat_shiftRight, Nat.shiftRight_eq_div_pow]
    rfl
  have signless : 2 * (num >>> 1).toBitVec.toNat < 2 ^ 64 := by
    rw [UInt64.toNat_toBitVec]
    omega
  have value := BitVec.toInt_eq_toNat_of_lt signless
  rw [UInt64.toNat_toBitVec, halved] at value
  exact value.trans (Int.natCast_ediv _ _)

theorem neg_and_1 (num : UInt64) : -(num &&& 1) = if num.toNat % 2 = 0 then 0 else -1 := by
  have last : (num &&& 1).toNat = num.toNat % 2 := by
    rw [UInt64.toNat_and]
    exact Nat.and_one_is_mod _
  split_ifs with even
  · rw [even] at last
    rw [UInt64.toNat.inj (last.trans UInt64.toNat_zero.symm), UInt64.neg_zero]
  · rw [Nat.mod_two_ne_zero.mp even] at last
    rw [UInt64.toNat.inj (last.trans UInt64.toNat_one.symm)]

theorem intEquivNat_zigzagDecodeUInt64 (num : UInt64) :
    Equiv.intEquivNat (zigzagDecodeUInt64 num).toInt = num.toNat := by
  have below := num.toNat_lt
  have half := toInt_shiftRight_1 num
  rw [zigzagDecodeUInt64, neg_and_1]
  split_ifs with even
  · have code := intEquivNat_of_nonneg (show 0 ≤ (num.toNat : Int) / 2 by omega)
    rw [UInt64.xor_zero, half]
    omega
  · have code := intEquivNat_of_neg (show -((num.toNat : Int) / 2) - 1 < 0 by omega)
    have inRange : (-((num.toNat : Int) / 2) - 1).bmod (2 ^ 64) = -((num.toNat : Int) / 2) - 1 :=
      Int.bmod_eq_of_le (by omega) (by omega)
    rw [UInt64.xor_neg_one, UInt64.toInt64_not, Int64.toInt_not, half, inRange]
    omega

theorem zigzagDecodeUInt64_encode (num : Int64) :
    zigzagDecodeUInt64 (zigzagEncodeInt64 num) = num := by
  have code := intEquivNat_zigzagDecodeUInt64 (zigzagEncodeInt64 num)
  rw [toNat_zigzagEncodeInt64] at code
  exact Int64.toInt.inj (Equiv.intEquivNat.injective code)

theorem zigzagEncodeInt64_decode (num : UInt64) :
    zigzagEncodeInt64 (zigzagDecodeUInt64 num) = num := by
  refine UInt64.toNat.inj ?_
  rw [toNat_zigzagEncodeInt64, intEquivNat_zigzagDecodeUInt64]

/-- The second loop prints the lines of the first, the other way round. -/
theorem main_mirrored (numArr : List Int64) :
    (main numArr).2 = (main numArr).1.map Prod.swap := by
  have pairs : numArr.zip (numArr.map zigzagEncodeInt64) =
      numArr.map fun num => (num, zigzagEncodeInt64 num) := by
    have zipped : (numArr.map id).zip (numArr.map zigzagEncodeInt64) =
        numArr.map fun num => (num, zigzagEncodeInt64 num) := List.zip_map'
    rwa [List.map_id] at zipped
  simp only [main, pairs, List.map_map]
  refine List.map_congr_left fun num _ => ?_
  exact congrArg (Prod.mk _) (zigzagDecodeUInt64_encode num)

/-- The encoder gives the zigzag values, the decoder is its inverse, and a
number has a short code if and only if its magnitude is small. -/
theorem zigzag_codec :
    (∀ num : Int64, ((zigzagEncodeInt64 num).toNat : Int) =
      if 0 ≤ num.toInt then 2 * num.toInt else -2 * num.toInt - 1) ∧
    (∀ num : Int64, zigzagDecodeUInt64 (zigzagEncodeInt64 num) = num) ∧
    (∀ code : UInt64, zigzagEncodeInt64 (zigzagDecodeUInt64 code) = code) ∧
    ∀ (num : Int64) (k : Nat), (zigzagEncodeInt64 num).toNat < 2 ^ (k + 1) ↔
      -(2 ^ k) ≤ num.toInt ∧ num.toInt < 2 ^ k := by
  refine ⟨fun num => ?_, zigzagDecodeUInt64_encode, zigzagEncodeInt64_decode, fun num k => ?_⟩
  · rw [toNat_zigzagEncodeInt64]
    split_ifs with nonneg
    · exact intEquivNat_of_nonneg nonneg
    · exact intEquivNat_of_neg (Int.not_le.mp nonneg)
  · have short := intEquivNat_lt_iff num.toInt (2 ^ k)
    rw [toNat_zigzagEncodeInt64, Nat.pow_succ', short, Nat.cast_pow]
    rfl

end ZigZag

end Tpt
