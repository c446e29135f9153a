import Mathlib.Tactic

/-!
The bit scan of `bitscan.c`.

The size of `inx_tbl` is a parameter.  An access outside an array has no
result.
-/

namespace Tpt

namespace BitScan

structure Table where
  size : Nat
  entry : Nat → UInt8

def Table.load (table : Table) (index : Nat) : Option UInt8 :=
  if index < table.size then some (table.entry index) else none

def Table.store (table : Table) (index : Nat) (value : UInt8) : Option Table :=
  if index < table.size then
    some { table with entry := Function.update table.entry index value }
  else none

def bzero (size : Nat) : Table := ⟨size, fun _ => 0⟩

def lut : List UInt8 :=
  [1, 2, 3, 4, 5, 6, 7, 8, 9, 10, 11, 12, 13, 14, 15, 16,
    17, 18, 19, 20, 21, 22, 23, 24, 25, 26, 27, 28, 29, 30, 31, 32]

/-- The size with which `inx_tbl` is declared. -/
def inxTblSize : Nat := 128

/-- `init_bit_inx_table`, of a table of a size. -/
def initBitInxTable (size : Nat) : Option Table := do
  let table ← (bzero size).store 1 0
  let table ← table.store 2 1
  let table ← table.store 4 2
  let table ← table.store 8 3
  let table ← table.store 16 4
  let table ← table.store 32 5
  let table ← table.store 64 6
  table.store 128 7

/-- The lines that one step of the inner loop prints. -/
structure Printed where
  byte : UInt8
  minus : UInt32
  left : UInt8
  temp : UInt8
  first : UInt8
  i : Nat
  second : UInt8
  deriving DecidableEq

/-- The lowest set bit; `byte` is promoted before it is negated. -/
def lowest (byte : UInt8) : UInt8 := (byte.toUInt32 &&& -byte.toUInt32).toUInt8

def scanStep (inxTbl : Table) (i : Nat) (byte : UInt8) : Option Printed := do
  let temp := lowest byte
  let left := byte ^^^ temp
  let first ← lut[(← inxTbl.load (i * 8 + temp.toNat)).toNat]?
  let second ← lut[i * 8 + (← inxTbl.load temp.toNat).toNat]?
  return ⟨byte, -byte.toUInt32, left, temp, first, i, second⟩

def place (byte : UInt8) : Nat := (lowest byte).toNat.log2

theorem byte_cases {property : UInt8 → Prop} (all : ∀ n < 256, property (UInt8.ofNat n))
    (byte : UInt8) : property byte := by
  have same := all byte.toNat byte.toNat_lt
  rwa [UInt8.ofNat_toNat] at same

instance decidableForallByte {property : UInt8 → Prop} [DecidablePred property] :
    Decidable (∀ byte, property byte) :=
  decidable_of_iff (∀ n < 256, property (UInt8.ofNat n)) ⟨byte_cases, fun all _ _ => all _⟩

theorem left_lt : ∀ byte, byte ≠ 0 → (byte ^^^ lowest byte).toNat < byte.toNat := by
  decide +kernel

def scanByte (inxTbl : Table) (i : Nat) (byte : UInt8) : Option (List Printed) :=
  if _ : byte = 0 then some []
  else do
    let printed ← scanStep inxTbl i byte
    let rest ← scanByte inxTbl i (byte ^^^ lowest byte)
    return printed :: rest
  termination_by byte.toNat
  decreasing_by exact left_lt byte ‹_›

/-- The bytes of `num` in memory. -/
def bytesOf (num : UInt32) : List UInt8 :=
  [num.toUInt8, (num >>> 8).toUInt8, (num >>> 16).toUInt8, (num >>> 24).toUInt8]

def scanBytes (inxTbl : Table) : Nat → List UInt8 → Option (List Printed)
  | _, [] => some []
  | i, byte :: bytes => do
      let printed ← scanByte inxTbl i byte
      let rest ← scanBytes inxTbl (i + 1) bytes
      return printed ++ rest

/-- `main`, for a number and a size of `inx_tbl`. -/
def main (size : Nat) (num : UInt32) : Option (List Printed) := do
  let inxTbl ← initBitInxTable size
  scanBytes inxTbl 0 (bytesOf num)

/-- The places of the set bits of a number of this width, lowest first. -/
def setBits (width number : Nat) : List Nat := (List.range width).filter number.testBit

/-- No access is outside its array, and the second values are the positions of
the set bits, counted from one. -/
def Meets (size : Nat) (num : UInt32) : Prop :=
  ∃ printed, main size num = some printed ∧
    printed.map (·.second.toNat) = (setBits 32 num.toNat).map (· + 1)

def filled (size : Nat) : Table :=
  ⟨size, fun index =>
    if index ∈ [1, 2, 4, 8, 16, 32, 64, 128] then UInt8.ofNat index.log2 else 0⟩

theorem initBitInxTable_eq_some {size : Nat} (large : 128 < size) :
    initBitInxTable size = some (filled size) := by
  have fits : ∀ index ≤ 128, index < size := fun _ below => below.trans_lt large
  simp only [initBitInxTable, Table.store, bzero, fits, Nat.reduceLeDiff, if_true,
    Option.bind_eq_bind, Option.bind_some, filled, Option.some.injEq, Table.mk.injEq, true_and]
  funext index
  simp only [Function.update_apply, List.mem_cons, List.not_mem_nil, or_false]
  split_ifs <;> simp_all <;> rfl

theorem Table.of_store
    {table after : Table} {index : Nat} {value : UInt8}
    (stored : table.store index value = some after) :
    index < table.size ∧ after.size = table.size := by
  rw [Table.store] at stored
  split_ifs at stored with inside
  obtain rfl := Option.some.inj stored
  exact ⟨inside, rfl⟩

theorem size_of_initBitInxTable
    {size : Nat} {table : Table} (filled : initBitInxTable size = some table) : 128 < size := by
  simp only [initBitInxTable, Option.bind_eq_bind, Option.bind_eq_some_iff] at filled
  obtain ⟨one, at1, two, at2, four, at4, eight, at8, sixteen, at16, thirty, at32, sixty, at64,
    last⟩ := filled
  have inside := (Table.of_store last).1
  rw [(Table.of_store at64).2, (Table.of_store at32).2, (Table.of_store at16).2,
    (Table.of_store at8).2, (Table.of_store at4).2, (Table.of_store at2).2,
    (Table.of_store at1).2] at inside
  exact inside

theorem lowest_eq :
    ∀ byte, byte ≠ 0 → place byte < 8 ∧ (lowest byte).toNat = 2 ^ place byte ∧
      setBits 8 byte.toNat = place byte :: setBits 8 (byte ^^^ lowest byte).toNat := by
  decide +kernel

theorem load_filled {size index : Nat} (inside : index < size) :
    ∃ inx, (filled size).load index = some inx ∧ inx.toNat < 8 := by
  have entries : ∀ power ∈ [1, 2, 4, 8, 16, 32, 64, 128],
      (UInt8.ofNat (Nat.log2 power)).toNat < 8 := by
    decide
  refine ⟨_, if_pos inside, ?_⟩
  simp only [filled]
  split_ifs with power
  · exact entries index power
  · decide

theorem load_lowest
    {size : Nat} {byte : UInt8} (large : 128 < size) (notZero : byte ≠ 0) :
    ((filled size).load (lowest byte).toNat) = some (UInt8.ofNat (place byte)) := by
  obtain ⟨small, power, _⟩ := lowest_eq byte notZero
  have powers : ∀ bit < 8, 2 ^ bit ≤ 128 ∧ 2 ^ bit ∈ [1, 2, 4, 8, 16, 32, 64, 128] := by decide
  obtain ⟨below, listed⟩ := powers (place byte) small
  have entry : (filled size).entry (2 ^ place byte) = UInt8.ofNat (2 ^ place byte).log2 :=
    if_pos listed
  rw [Nat.log2_two_pow] at entry
  rw [power, ← entry]
  exact if_pos (below.trans_lt large)

theorem lut_eq {index : Nat} (inside : index < 32) :
    lut[index]? = some (UInt8.ofNat (index + 1)) := by
  revert index
  decide

section Scan

variable {size i : Nat} {byte : UInt8}

theorem scanStep_some
    (large : 128 < size) (inNum : i < 4) (notZero : byte ≠ 0)
    (inside : i * 8 + 2 ^ place byte < size) :
    ∃ printed, scanStep (filled size) i byte = some printed ∧
      printed.second.toNat = i * 8 + place byte + 1 := by
  obtain ⟨small, power, _⟩ := lowest_eq byte notZero
  rw [← power] at inside
  obtain ⟨inx, loaded, below⟩ := load_filled inside
  have position : i * 8 + place byte < 32 := by omega
  have toPlace : (UInt8.ofNat (place byte)).toNat = place byte :=
    UInt8.toNat_ofNat_of_lt' (small.trans (by decide))
  refine ⟨⟨byte, -byte.toUInt32, byte ^^^ lowest byte, lowest byte, UInt8.ofNat (inx.toNat + 1), i,
    UInt8.ofNat (i * 8 + place byte + 1)⟩, ?_, ?_⟩
  · simp only [scanStep, loaded, load_lowest large notZero, toPlace, Option.bind_eq_bind,
      Option.bind_some, lut_eq position, lut_eq (below.trans (by decide : 8 < 32))]
    rfl
  · exact UInt8.toNat_ofNat_of_lt' (by change _ < 256; omega)

theorem scanStep_inside
    {printed : Printed} (notZero : byte ≠ 0)
    (scanned : scanStep (filled size) i byte = some printed) :
    i * 8 + 2 ^ place byte < size := by
  obtain ⟨inx, loaded, _⟩ := Option.bind_eq_some_iff.mp scanned
  rw [Table.load] at loaded
  split_ifs at loaded with inside
  rw [← (lowest_eq byte notZero).2.1]
  exact inside

def Inside (size i : Nat) (byte : UInt8) : Prop :=
  ∀ bit ∈ setBits 8 byte.toNat, i * 8 + 2 ^ bit < size

theorem inside_next
    (notZero : byte ≠ 0) :
    Inside size i byte ↔
      i * 8 + 2 ^ place byte < size ∧ Inside size i (byte ^^^ lowest byte) := by
  rw [Inside, (lowest_eq byte notZero).2.2, List.forall_mem_cons]
  rfl

theorem scanByte_some
    (large : 128 < size) (inNum : i < 4) (inside : Inside size i byte) :
    ∃ printed, scanByte (filled size) i byte = some printed ∧
      printed.map (·.second.toNat) = (setBits 8 byte.toNat).map (i * 8 + · + 1) := by
  induction byte using scanByte.induct with
  | case1 => exact ⟨[], by rw [scanByte, dif_pos rfl], rfl⟩
  | case2 byte notZero inductionHypothesis =>
      obtain ⟨fits, rest⟩ := (inside_next notZero).mp inside
      obtain ⟨first, scanned, position⟩ := scanStep_some large inNum notZero fits
      obtain ⟨printed, later, positions⟩ := inductionHypothesis rest
      refine ⟨first :: printed, ?_, ?_⟩
      · rw [scanByte, dif_neg notZero, scanned, Option.bind_eq_bind, Option.bind_some, later]
        rfl
      · rw [List.map_cons, position, positions, (lowest_eq byte notZero).2.2]
        rfl

theorem scanByte_inside
    {printed : List Printed} (scanned : scanByte (filled size) i byte = some printed) :
    Inside size i byte := by
  induction byte using scanByte.induct generalizing printed with
  | case1 => exact fun bit member => absurd member (by decide +revert)
  | case2 byte notZero inductionHypothesis =>
      rw [scanByte, dif_neg notZero] at scanned
      obtain ⟨first, stepped, later⟩ := Option.bind_eq_some_iff.mp scanned
      obtain ⟨rest, scannedRest, _⟩ := Option.bind_eq_some_iff.mp later
      exact (inside_next notZero).mpr
        ⟨scanStep_inside notZero stepped, inductionHypothesis scannedRest⟩

end Scan

section Bytes

variable {size : Nat}

def positions : Nat → List UInt8 → List Nat
  | _, [] => []
  | i, byte :: bytes => (setBits 8 byte.toNat).map (i * 8 + · + 1) ++ positions (i + 1) bytes

def AllInside (size : Nat) : Nat → List UInt8 → Prop
  | _, [] => True
  | i, byte :: bytes => Inside size i byte ∧ AllInside size (i + 1) bytes

theorem scanBytes_some
    {i : Nat} {bytes : List UInt8} (large : 128 < size) (inNum : i + bytes.length ≤ 4)
    (inside : AllInside size i bytes) :
    ∃ printed, scanBytes (filled size) i bytes = some printed ∧
      printed.map (·.second.toNat) = positions i bytes := by
  induction bytes generalizing i with
  | nil => exact ⟨[], rfl, rfl⟩
  | cons byte bytes inductionHypothesis =>
      rw [List.length_cons, ← Nat.add_assoc, Nat.add_right_comm] at inNum
      obtain ⟨first, scanned, values⟩ :=
        scanByte_some large (Nat.lt_of_lt_of_le (Nat.lt_add_one i) (by omega)) inside.1
      obtain ⟨rest, later, restValues⟩ := inductionHypothesis inNum inside.2
      refine ⟨first ++ rest, ?_, ?_⟩
      · rw [scanBytes, scanned, Option.bind_eq_bind, Option.bind_some, later]
        rfl
      · rw [List.map_append, values, restValues, positions]

theorem scanBytes_inside
    {i : Nat} {bytes : List UInt8} {printed : List Printed}
    (scanned : scanBytes (filled size) i bytes = some printed) : AllInside size i bytes := by
  induction bytes generalizing i printed with
  | nil => trivial
  | cons byte bytes inductionHypothesis =>
      obtain ⟨first, stepped, later⟩ := Option.bind_eq_some_iff.mp scanned
      obtain ⟨rest, scannedRest, _⟩ := Option.bind_eq_some_iff.mp later
      exact ⟨scanByte_inside stepped, inductionHypothesis scannedRest⟩

theorem setBits_byte_add {byte : Nat} (width high : Nat) (small : byte < 256) :
    setBits (8 + width) (byte + 256 * high) =
      setBits 8 byte ++ (setBits width high).map (8 + ·) := by
  have low : (byte + 256 * high) % 2 ^ 8 = byte := by omega
  have rest : (byte + 256 * high) / 2 ^ 8 = high := by omega
  rw [setBits, List.range_add, List.filter_append, List.filter_map, setBits, setBits]
  congr 1
  · refine List.filter_congr fun bit member => ?_
    have inByte := Nat.testBit_mod_two_pow (byte + 256 * high) 8 bit
    rw [decide_eq_true (List.mem_range.mp member), Bool.true_and, low] at inByte
    exact inByte.symm
  · refine congrArg (List.map _) (List.filter_congr fun bit _ => ?_)
    have above := Nat.testBit_div_two_pow (n := 8) (byte + 256 * high) bit
    rw [rest, Nat.add_comm bit 8] at above
    exact above.symm

def valueOf (bytes : List UInt8) : Nat := Nat.ofDigits 256 (bytes.map UInt8.toNat)

theorem setBits_valueOf (byte : UInt8) (bytes : List UInt8) :
    setBits (8 * (bytes.length + 1)) (valueOf (byte :: bytes)) =
      setBits 8 byte.toNat ++ (setBits (8 * bytes.length) (valueOf bytes)).map (8 + ·) := by
  rw [Nat.mul_add, Nat.add_comm, valueOf, List.map_cons, Nat.ofDigits_cons]
  exact setBits_byte_add _ _ byte.toNat_lt

theorem positions_eq (i : Nat) (bytes : List UInt8) :
    positions i bytes =
      (setBits (8 * bytes.length) (valueOf bytes)).map (i * 8 + · + 1) := by
  induction bytes generalizing i with
  | nil => rfl
  | cons byte bytes inductionHypothesis =>
      rw [positions, List.length_cons, setBits_valueOf, List.map_append, List.map_map,
        inductionHypothesis (i + 1)]
      congr 1
      refine List.map_congr_left fun bit _ => ?_
      simp only [Function.comp_apply]
      ring

theorem allInside_iff (size i : Nat) (bytes : List UInt8) :
    AllInside size i bytes ↔
      ∀ bit ∈ setBits (8 * bytes.length) (valueOf bytes),
        (i + bit / 8) * 8 + 2 ^ (bit % 8) < size := by
  induction bytes generalizing i with
  | nil => exact ⟨fun _ bit member => absurd member List.not_mem_nil, fun _ => trivial⟩
  | cons byte bytes inductionHypothesis =>
      rw [AllInside, inductionHypothesis, List.length_cons, setBits_valueOf,
        List.forall_mem_append, List.forall_mem_map, Inside]
      refine and_congr (forall₂_congr fun bit member => ?_) (forall₂_congr fun bit _ => ?_)
      · have small : bit < 8 := List.mem_range.mp (List.mem_of_mem_filter member)
        rw [Nat.div_eq_of_lt small, Nat.mod_eq_of_lt small, Nat.add_zero]
      · rw [Nat.add_mod_left, Nat.add_div_left bit (by decide), Nat.add_succ, Nat.succ_add]
        rfl

theorem valueOf_bytesOf (num : UInt32) : valueOf (bytesOf num) = num.toNat := by
  have small := num.toNat_lt
  simp only [valueOf, bytesOf, List.map_cons, List.map_nil, Nat.ofDigits_cons, Nat.ofDigits_nil,
    UInt32.toNat_toUInt8, UInt32.toNat_shiftRight, Nat.shiftRight_eq_div_pow]
  have shifts : UInt32.toNat 8 % 32 = 8 ∧ UInt32.toNat 16 % 32 = 16 ∧
      UInt32.toNat 24 % 32 = 24 := by decide
  rw [shifts.1, shifts.2.1, shifts.2.2]
  omega

end Bytes

/-- What the program asks of the size of `inx_tbl`: room for the last store, and
for the indices `i * 8 + temp`. -/
theorem meets_iff (size : Nat) (num : UInt32) :
    Meets size num ↔
      128 < size ∧ ∀ bit ∈ setBits 32 num.toNat, bit / 8 * 8 + 2 ^ (bit % 8) < size := by
  have inside := allInside_iff size 0 (bytesOf num)
  have values := positions_eq 0 (bytesOf num)
  simp only [valueOf_bytesOf, Nat.zero_add, Nat.zero_mul] at inside values
  constructor
  · rintro ⟨printed, scanned, _⟩
    obtain ⟨table, fills, later⟩ := Option.bind_eq_some_iff.mp scanned
    have large := size_of_initBitInxTable fills
    rw [initBitInxTable_eq_some large] at fills
    obtain rfl := Option.some.inj fills
    exact ⟨large, inside.mp (scanBytes_inside later)⟩
  · rintro ⟨large, fits⟩
    obtain ⟨printed, scanned, same⟩ := scanBytes_some large (le_refl _) (inside.mpr fits)
    refine ⟨printed, ?_, same.trans values⟩
    rw [main, initBitInxTable_eq_some large]
    exact scanned

/-- The table is one entry too short for its initialiser. -/
theorem bitscan_never_meets (num : UInt32) : ¬ Meets inxTblSize num :=
  fun meets => absurd ((meets_iff inxTblSize num).mp meets).1 (by decide)

theorem demo_overruns_table :
    main inxTblSize 0x12345678 = none ∧ ¬ Meets inxTblSize 0x12345678 := by
  have faults : main inxTblSize 0x12345678 = none := by decide
  refine ⟨faults, ?_⟩
  rintro ⟨printed, scanned, _⟩
  rw [faults] at scanned
  cases scanned

end BitScan

end Tpt
