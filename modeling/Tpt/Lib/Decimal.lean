import Mathlib.Tactic

/-!
Texts of bytes: string literals and numbers, as C prints them.
-/

namespace Tpt

def ascii (text : String) : List UInt8 := text.toList.map fun char => UInt8.ofNat char.toNat

/-- The digits of a number, highest first. -/
def decimal (number : Nat) : List UInt8 :=
  if number = 0 then [48]
  else (Nat.digits 10 number).reverse.map fun digit => UInt8.ofNat (48 + digit)

/-- The text that `%d` gives of a number. -/
def signedDecimal (number : Int) : List UInt8 :=
  if number < 0 then 45 :: decimal number.natAbs else decimal number.natAbs

theorem mem_decimal {byte : UInt8} {number : Nat} (found : byte ∈ decimal number) :
    ∃ digit < 10, byte = UInt8.ofNat (48 + digit) := by
  rw [decimal] at found
  split_ifs at found with zero
  · exact ⟨0, by decide, List.mem_singleton.mp found⟩
  · obtain ⟨digit, digitFound, same⟩ := List.mem_map.mp found
    rw [List.mem_reverse] at digitFound
    exact ⟨digit, Nat.digits_lt_base (by decide) digitFound, same.symm⟩

/-- A byte that is neither a digit nor the sign. -/
def NotInNumbers (byte : UInt8) : Prop := byte ≠ 45 ∧ ∀ digit < 10, byte ≠ UInt8.ofNat (48 + digit)

instance (byte : UInt8) : Decidable (NotInNumbers byte) := inferInstanceAs (Decidable (_ ∧ _))

theorem NotInNumbers.not_mem_decimal
    {byte : UInt8} (other : NotInNumbers byte) (number : Nat) : byte ∉ decimal number := by
  intro found
  obtain ⟨digit, below, same⟩ := mem_decimal found
  exact other.2 digit below same

theorem NotInNumbers.not_mem_signedDecimal
    {byte : UInt8} (other : NotInNumbers byte) (number : Int) :
    byte ∉ signedDecimal number := by
  rw [signedDecimal]
  split_ifs
  · rw [List.mem_cons, not_or]
    exact ⟨other.1, other.not_mem_decimal _⟩
  · exact other.not_mem_decimal _

def hexDigit (digit : Nat) : UInt8 := UInt8.ofNat (if digit < 10 then 48 + digit else 87 + digit)

def hexadecimal (number : Nat) : List UInt8 :=
  if number = 0 then [48] else (Nat.digits 16 number).reverse.map hexDigit

theorem length_decimal_le
    {number width : Nat} (positive : 0 < width) (small : number < 10 ^ width) :
    (decimal number).length ≤ width := by
  rw [decimal]
  split_ifs
  · exact positive
  · rw [List.length_map, List.length_reverse, Nat.digits_length_le_iff (by decide)]
    exact small

theorem length_signedDecimal_le
    {number : Int} {width : Nat} (positive : 0 < width) (small : number.natAbs < 10 ^ width) :
    (signedDecimal number).length ≤ width + 1 := by
  have digits := length_decimal_le positive small
  rw [signedDecimal]
  split_ifs
  · exact Nat.succ_le_succ digits
  · exact Nat.le_succ_of_le digits

theorem mem_hexadecimal {byte : UInt8} {number : Nat} (found : byte ∈ hexadecimal number) :
    ∃ digit < 16, byte = hexDigit digit := by
  rw [hexadecimal] at found
  split_ifs at found with zero
  · exact ⟨0, by decide, List.mem_singleton.mp found⟩
  · obtain ⟨digit, digitFound, same⟩ := List.mem_map.mp found
    rw [List.mem_reverse] at digitFound
    exact ⟨digit, Nat.digits_lt_base (by decide) digitFound, same.symm⟩

theorem length_hexadecimal_le
    {number width : Nat} (positive : 0 < width) (small : number < 16 ^ width) :
    (hexadecimal number).length ≤ width := by
  rw [hexadecimal]
  split_ifs
  · exact positive
  · rw [List.length_map, List.length_reverse, Nat.digits_length_le_iff (by decide)]
    exact small

/-- The last `width` digits of a number, highest first. -/
def fixedDecimal : Nat → Nat → List UInt8
  | 0, _ => []
  | width + 1, number => fixedDecimal width (number / 10) ++ [UInt8.ofNat (48 + number % 10)]

def IsDigit (byte : UInt8) : Prop := 48 ≤ byte.toNat ∧ byte.toNat < 58

@[simp]
theorem length_fixedDecimal (width number : Nat) : (fixedDecimal width number).length = width := by
  induction width generalizing number with
  | zero => rfl
  | succ width inductionHypothesis =>
      rw [fixedDecimal, List.length_append, inductionHypothesis, List.length_singleton]

theorem toNat_digit {digit : Nat} (small : digit < 10) :
    (UInt8.ofNat (48 + digit)).toNat = 48 + digit :=
  UInt8.toNat_ofNat_of_lt' (by change _ < 256; omega)

theorem isDigit_of_mem_fixedDecimal
    {byte : UInt8} {width number : Nat} (member : byte ∈ fixedDecimal width number) :
    IsDigit byte := by
  induction width generalizing number with
  | zero => cases member
  | succ width inductionHypothesis =>
      rcases List.mem_append.mp member with earlier | last
      · exact inductionHypothesis earlier
      · have small := Nat.mod_lt number (show 10 > 0 by decide)
        rw [List.mem_singleton.mp last, IsDigit, toNat_digit small]
        omega

theorem exists_fixedDecimal
    {digits : List UInt8} (areDigits : ∀ byte ∈ digits, IsDigit byte) :
    ∃ number < 10 ^ digits.length, fixedDecimal digits.length number = digits := by
  induction digits using List.reverseRecOn with
  | nil => exact ⟨0, Nat.one_pos, rfl⟩
  | append_singleton digits last inductionHypothesis =>
      obtain ⟨high, bound, same⟩ :=
        inductionHypothesis fun byte member => areDigits byte (List.mem_append_left _ member)
      obtain ⟨above, below⟩ := areDigits last (List.mem_append_right _ (List.mem_singleton_self _))
      have quotient : (10 * high + (last.toNat - 48)) / 10 = high := by omega
      have remainder : 48 + (10 * high + (last.toNat - 48)) % 10 = last.toNat := by omega
      rw [List.length_append, List.length_singleton, Nat.pow_succ]
      refine ⟨10 * high + (last.toNat - 48), by omega, ?_⟩
      rw [fixedDecimal, quotient, remainder, same, UInt8.ofNat_toNat]

theorem append_lt_append
    {first second firstRest secondRest : List UInt8} (smaller : first < second)
    (lengths : first.length = second.length) : first ++ firstRest < second ++ secondRest := by
  induction first generalizing second with
  | nil => rw [List.eq_nil_of_length_eq_zero lengths.symm] at smaller; cases smaller
  | cons byte first inductionHypothesis =>
      cases second with
      | nil => cases smaller
      | cons other second =>
          rw [List.cons_append, List.cons_append, List.cons_lt_cons_iff]
          rcases List.cons_lt_cons_iff.mp smaller with less | ⟨same, less⟩
          · exact .inl less
          · exact .inr ⟨same, inductionHypothesis less (Nat.succ.inj lengths)⟩

theorem fixedDecimal_lt
    {width smaller larger : Nat} (less : smaller < larger) (bound : larger < 10 ^ width) :
    fixedDecimal width smaller < fixedDecimal width larger := by
  induction width generalizing smaller larger with
  | zero =>
      rw [Nat.pow_zero] at bound
      omega
  | succ width inductionHypothesis =>
      rw [Nat.pow_succ] at bound
      rw [fixedDecimal, fixedDecimal]
      rcases Nat.lt_or_eq_of_le (Nat.div_le_div_right less.le : smaller / 10 ≤ larger / 10) with
        high | same
      · refine append_lt_append (inductionHypothesis high (by omega)) ?_
        rw [length_fixedDecimal, length_fixedDecimal]
      · have digits : smaller % 10 < larger % 10 := by omega
        rw [same]
        refine List.append_left_lt (List.cons_lt_cons_iff.mpr (.inl ?_))
        rw [UInt8.lt_iff_toNat_lt, toNat_digit (by omega), toNat_digit (by omega)]
        omega

end Tpt
