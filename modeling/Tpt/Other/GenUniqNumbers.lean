import Tpt.Lib.Decimal

/-!
The number generator of `genUniqNumbers.c`.

The counter is a `UInt64`, its bound comes from a power of an `Int32`, and the
digits are those of an `Int32` again.  An access outside a buffer has no result.
-/

namespace Tpt

namespace GenUniqNumbers

def size : Int32 := 10

def gDigits : List UInt8 := ascii "0123456789"

/-- `retVal` after this many turns. -/
def power (base : Int32) : Nat → Int32
  | 0 => 1
  | turns + 1 => power base turns * base

/-- `myPower`, which converts the `int` that it returns. -/
def myPower (base : Int32) (exp : Nat) : UInt64 := (power base exp).toInt64.toUInt64

def digitAt (index : Int32) : Option UInt8 :=
  if 0 ≤ index then gDigits[index.toNatClampNeg]? else none

/-- The digit loop; `numDigits - j` is counted down. -/
def digitLoop : Nat → Int32 → List UInt8 → Option (List UInt8)
  | 0, _, number => some number
  | left + 1, toPrint, number => do
      let digit ← digitAt (toPrint % size)
      digitLoop left (toPrint / size) (number.set left digit)

def msisdnSize : Nat := 16

/-- `sprintf` of a number to `msisdn`. -/
def sprintf (number : List UInt8) : Option (List UInt8) :=
  let text := ascii "268" ++ number.takeWhile (· ≠ 0)
  if text.length < msisdnSize then some text else none

/-- The loop, for these values of `i`: the lines that it prints. -/
def generatorLoop (numDigits : Nat) : List Nat → List UInt8 → Option (List (List UInt8))
  | [], _ => some []
  | i :: counters, number => do
      let number ← digitLoop numDigits (UInt64.ofNat i).toUInt32.toInt32 number
      let msisdn ← sprintf number
      let lines ← generatorLoop numDigits counters number
      return msisdn :: lines

def generator (numDigits : Nat) : Option (List (List UInt8)) :=
  generatorLoop numDigits (List.range (myPower size numDigits).toNat)
    (List.replicate (numDigits + 1) 0)

/-- The lines are the texts of `268` and this many digits, in order. -/
structure AllNumbers (numDigits : Nat) (lines : List (List UInt8)) : Prop where
  mem_iff : ∀ line, line ∈ lines ↔
    ∃ digits, digits.length = numDigits ∧ (∀ byte ∈ digits, IsDigit byte) ∧
      line = ascii "268" ++ digits
  increasing : lines.Pairwise (· < ·)
  length : lines.length = 10 ^ numDigits

def Generates (numDigits : Nat) : Prop :=
  ∃ lines, generator numDigits = some lines ∧ AllNumbers numDigits lines

theorem digitAt_mod {number : Nat} (small : number < 2 ^ 31) :
    digitAt (Int32.ofNat number % size) = some (UInt8.ofNat (48 + number % 10)) := by
  have remainder : Int32.ofNat number % size = Int32.ofNat (number % 10) := by
    refine Int32.toInt.inj ?_
    rw [Int32.toInt_mod, Int32.toInt_ofNat_of_lt small, Int32.toInt_ofNat_of_lt (by omega)]
    exact (Int.natCast_mod number 10).symm
  have digits : ∀ digit < 10, digitAt (Int32.ofNat digit) = some (UInt8.ofNat (48 + digit)) := by
    decide
  rw [remainder]
  exact digits _ (Nat.mod_lt _ (by decide))

theorem div_size {number : Nat} (small : number < 2 ^ 31) :
    Int32.ofNat number / size = Int32.ofNat (number / 10) := by
  refine Int32.toInt.inj ?_
  rw [Int32.toInt_div_of_ne_right _ _ (by decide), Int32.toInt_ofNat_of_lt small,
    Int32.toInt_ofNat_of_lt (by omega)]
  exact (Int.natCast_div number 10).symm

theorem digitLoop_eq
    {left number : Nat} {buffer : List UInt8} (small : number < 2 ^ 31)
    (fits : left ≤ buffer.length) :
    digitLoop left (Int32.ofNat number) buffer =
      some (fixedDecimal left number ++ buffer.drop left) := by
  induction left generalizing number buffer with
  | zero => rfl
  | succ left inductionHypothesis =>
      rw [digitLoop, digitAt_mod small, div_size small, Option.bind_eq_bind, Option.bind_some,
        inductionHypothesis (by omega) (by rw [List.length_set]; omega), fixedDecimal,
        List.append_assoc, List.drop_set, if_neg (lt_irrefl left), Nat.sub_self,
        List.drop_eq_getElem_cons fits]
      rfl

theorem takeWhile_digits {digits rest : List UInt8} (areDigits : ∀ byte ∈ digits, IsDigit byte) :
    (digits ++ 0 :: rest).takeWhile (· ≠ 0) = digits := by
  have notZero : ∀ byte ∈ digits, decide (byte ≠ 0) = true := by
    intro byte member
    rw [decide_eq_true_iff]
    rintro rfl
    exact absurd (areDigits 0 member).1 (by decide)
  rw [List.takeWhile_append_of_pos notZero]
  exact List.append_nil digits

section Lines

variable {numDigits : Nat} {counters : List Nat} {number : List UInt8}

theorem sprintf_digits
    {digits : List UInt8} (areDigits : ∀ byte ∈ digits, IsDigit byte) (fits : digits.length ≤ 12) :
    sprintf (digits ++ [0]) = some (ascii "268" ++ digits) := by
  have short : (ascii "268" ++ digits).length < msisdnSize := by
    rw [List.length_append]
    exact Nat.lt_succ_of_le (Nat.add_le_add_left fits 3)
  rw [sprintf, takeWhile_digits areDigits]
  exact if_pos short

theorem generatorLoop_eq
    (few : numDigits ≤ 12) (small : ∀ i ∈ counters, i < 2 ^ 31)
    (terminated : number.drop numDigits = [0]) :
    generatorLoop numDigits counters number =
      some (counters.map fun i => ascii "268" ++ fixedDecimal numDigits i) := by
  induction counters generalizing number with
  | nil => rfl
  | cons i counters inductionHypothesis =>
      obtain ⟨smallHere, smallLater⟩ := List.forall_mem_cons.mp small
      have narrowed : (UInt64.ofNat i).toUInt32.toInt32 = Int32.ofNat i :=
        congrArg UInt32.toInt32 (UInt64.toUInt32_ofNat' i)
      have fits : numDigits ≤ number.length := by
        by_contra short
        rw [List.drop_eq_nil_of_le (Nat.le_of_not_le short)] at terminated
        cases terminated
      have filled : (fixedDecimal numDigits i ++ [0]).drop numDigits = [0] :=
        List.drop_left' (length_fixedDecimal numDigits i)
      have areDigits : ∀ byte ∈ fixedDecimal numDigits i, IsDigit byte :=
        fun _ => isDigit_of_mem_fixedDecimal
      have line := sprintf_digits areDigits ((length_fixedDecimal numDigits i).trans_le few)
      rw [generatorLoop, narrowed, digitLoop_eq smallHere fits, terminated, Option.bind_eq_bind,
        Option.bind_some, line, Option.bind_some, inductionHypothesis smallLater filled]
      rfl

theorem length_generatorLoop
    {lines : List (List UInt8)} (printed : generatorLoop numDigits counters number = some lines) :
    lines.length = counters.length := by
  induction counters generalizing number lines with
  | nil =>
      obtain rfl := Option.some.inj printed
      rfl
  | cons i counters inductionHypothesis =>
      obtain ⟨_, _, line⟩ := Option.bind_eq_some_iff.mp printed
      obtain ⟨_, _, later⟩ := Option.bind_eq_some_iff.mp line
      obtain ⟨rest, printedRest, same⟩ := Option.bind_eq_some_iff.mp later
      obtain rfl := Option.some.inj same
      rw [List.length_cons, inductionHypothesis printedRest, List.length_cons]

end Lines

theorem allNumbers_fixedDecimal (numDigits : Nat) :
    AllNumbers numDigits
      ((List.range (10 ^ numDigits)).map fun i => ascii "268" ++ fixedDecimal numDigits i) where
  mem_iff line := by
    rw [List.mem_map]
    constructor
    · rintro ⟨i, _, rfl⟩
      exact ⟨_, length_fixedDecimal numDigits i, fun _ => isDigit_of_mem_fixedDecimal, rfl⟩
    · rintro ⟨digits, rfl, areDigits, rfl⟩
      obtain ⟨i, bound, same⟩ := exists_fixedDecimal areDigits
      exact ⟨i, List.mem_range.mpr bound, congrArg _ same⟩
  increasing := by
    rw [List.pairwise_map]
    refine List.pairwise_lt_range.imp_of_mem ?_
    intro i j _ member less
    exact List.append_left_lt (fixedDecimal_lt less (List.mem_range.mp member))
  length := by rw [List.length_map, List.length_range]

/-- The bound of the loop is below `2 ^ 31`, or it is that of a negative power. -/
theorem myPower_toNat (base : Int32) (exp : Nat) :
    (myPower base exp).toNat < 2 ^ 31 ∨ 2 ^ 64 - 2 ^ 31 ≤ (myPower base exp).toNat := by
  have above := Int32.le_toInt (power base exp)
  have below := Int32.toInt_lt (power base exp)
  have same := Int32.toInt_toInt64 (power base exp)
  have bits := BitVec.toInt_eq_toNat_cond (power base exp).toInt64.toBitVec
  rw [Int64.toInt_toBitVec, same, Int64.toNat_toBitVec] at bits
  rw [myPower]
  split_ifs at bits <;> omega

theorem myPower_ne {numDigits : Nat} (many : 10 ≤ numDigits) :
    (myPower size numDigits).toNat ≠ 10 ^ numDigits := by
  have bound := (myPower size numDigits).toNat_lt
  have above : 10 ^ 10 ≤ 10 ^ numDigits := Nat.pow_le_pow_right (by decide) many
  rcases Nat.lt_or_ge numDigits 20 with fewer | more
  · have below : 10 ^ numDigits ≤ 10 ^ 19 :=
      Nat.pow_le_pow_right (by decide) (Nat.le_of_lt_succ fewer)
    rcases myPower_toNat size numDigits with positive | negative <;> omega
  · have large : 10 ^ 20 ≤ 10 ^ numDigits := Nat.pow_le_pow_right (by decide) more
    omega

/-- The generator is complete for as many digits as an `int` has room for. -/
theorem generates_iff (numDigits : Nat) : Generates numDigits ↔ numDigits ≤ 9 := by
  constructor
  · rintro ⟨lines, printed, numbers⟩
    by_contra many
    have length := length_generatorLoop printed
    rw [numbers.length, List.length_range] at length
    exact myPower_ne (Nat.lt_of_not_le many) length.symm
  · intro few
    have powers : ∀ exp ≤ 9, (myPower size exp).toNat = 10 ^ exp := by decide
    have bound : 10 ^ numDigits ≤ 10 ^ 9 := Nat.pow_le_pow_right (by decide) few
    refine ⟨_, ?_, allNumbers_fixedDecimal numDigits⟩
    rw [generator, powers numDigits few]
    refine generatorLoop_eq (few.trans (by decide)) (fun i member => ?_) ?_
    · exact (List.mem_range.mp member).trans_le (bound.trans (by decide))
    · rw [List.drop_replicate, Nat.add_sub_cancel_left]
      rfl

/-- Ten digits: the bound is 1410065408. -/
theorem ten_digits_incomplete :
    (myPower size 10).toNat = 1410065408 ∧ ¬ Generates 10 := by
  have bound : (myPower size 10).toNat = 1410065408 := by decide
  refine ⟨bound, ?_⟩
  rintro ⟨lines, printed, numbers⟩
  have length := length_generatorLoop printed
  rw [numbers.length, List.length_range, bound] at length
  cases length

end GenUniqNumbers

end Tpt
