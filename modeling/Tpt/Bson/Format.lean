import Tpt.Bson.Codec

/-!
The BSON format.

A document is a length of four bytes, its elements, and a zero byte; an element
is a type byte, its key, a zero byte and its value.  An embedded document is
written as it is, and read by its length.  Bytes that are not a document of
that length, which libbson would refuse, have types of their own here.
-/

namespace Tpt

namespace Bson

/-- The digits of a number in base 256, lowest first. -/
def le : Nat → Nat → Bytes
  | 0, _ => []
  | width + 1, number => UInt8.ofNat number :: le width (number / 256)

def ofLe : Bytes → Nat
  | [] => 0
  | byte :: bytes => byte.toNat + 256 * ofLe bytes

def takeBytes (count : Nat) (bytes : Bytes) : Option (Bytes × Bytes) :=
  if count ≤ bytes.length then some (bytes.take count, bytes.drop count) else none

def takeString : Bytes → Option (CString × Bytes)
  | [] => none
  | byte :: bytes =>
      if zero : byte = 0 then some (⟨[], List.not_mem_nil⟩, bytes)
      else (takeString bytes).map fun (str, rest) =>
        (⟨byte :: str.bytes, by
          rw [List.mem_cons, not_or]
          exact ⟨fun same => zero same.symm, str.noNul⟩⟩, rest)

def Sized (data : Bytes) : Prop := 4 ≤ data.length ∧ ofLe (data.take 4) = data.length

instance (data : Bytes) : Decidable (Sized data) := inferInstanceAs (Decidable (_ ∧ _))

/-- Bytes of any kind, each marked by a one and the last by a zero. -/
def marked : Bytes → Bytes
  | [] => [0]
  | byte :: bytes => 1 :: byte :: marked bytes

def takeMarked : Bytes → Option (Bytes × Bytes)
  | [] => none
  | [mark] => if mark = 0 then some ([], []) else none
  | mark :: byte :: bytes =>
      if mark = 0 then some ([], byte :: bytes)
      else (takeMarked bytes).map fun (data, rest) => (byte :: data, rest)

def takeSized (bytes : Bytes) : Option (Bytes × Bytes) :=
  (takeBytes 4 bytes).bind fun (length, _) =>
    if 4 ≤ ofLe length then takeBytes (ofLe length) bytes else none

def short? : Bytes × Bytes → Option (Short × Bytes)
  | (data, rest) => if fits : data.length < 2 ^ 32 then some (⟨data, fits⟩, rest) else none

/-- The types of values; the last two are for bytes that are no document. -/
inductive ElementType where
  | double
  | utf8
  | document
  | array
  | int32
  | int64
  | rawDocument
  | rawArray
  deriving DecidableEq

def ElementType.byte : ElementType → UInt8
  | .double => 0x01
  | .utf8 => 0x02
  | .document => 0x03
  | .array => 0x04
  | .int32 => 0x10
  | .int64 => 0x12
  | .rawDocument => 0x83
  | .rawArray => 0x84

def ElementType.ofByte? (byte : UInt8) : Option ElementType :=
  [.double, .utf8, .document, .array, .int32, .int64, .rawDocument, .rawArray].find?
    fun type => type.byte = byte

def encodeValue : Value → ElementType × Bytes
  | .int32 value => (.int32, le 4 value.toUInt32.toNat)
  | .int64 value => (.int64, le 8 value.toUInt64.toNat)
  | .double bits => (.double, le 8 bits.toNat)
  | .utf8 str _ => (.utf8, le 4 (str.bytes.length + 1) ++ (str.bytes ++ [0]))
  | .array data =>
      if Sized data.bytes then (.array, data.bytes) else (.rawArray, marked data.bytes)
  | .document data =>
      if Sized data.bytes then (.document, data.bytes) else (.rawDocument, marked data.bytes)

def decodeValue (bytes : Bytes) : ElementType → Option (Value × Bytes)
  | .int32 =>
      (takeBytes 4 bytes).map fun (digits, rest) =>
        (.int32 (UInt32.ofNat (ofLe digits)).toInt32, rest)
  | .int64 =>
      (takeBytes 8 bytes).map fun (digits, rest) =>
        (.int64 (UInt64.ofNat (ofLe digits)).toInt64, rest)
  | .double =>
      (takeBytes 8 bytes).map fun (digits, rest) => (.double (UInt64.ofNat (ofLe digits)), rest)
  | .utf8 =>
      (takeBytes 4 bytes).bind fun (_, rest) =>
        (takeString rest).bind fun (str, rest) =>
          if fits : str.bytes.length < 2 ^ 32 then some (.utf8 str fits, rest) else none
  | .array => ((takeSized bytes).bind short?).map fun (data, rest) => (.array data, rest)
  | .document => ((takeSized bytes).bind short?).map fun (data, rest) => (.document data, rest)
  | .rawArray => ((takeMarked bytes).bind short?).map fun (data, rest) => (.array data, rest)
  | .rawDocument =>
      ((takeMarked bytes).bind short?).map fun (data, rest) => (.document data, rest)

def encodeElement (element : Element) : Bytes :=
  (encodeValue element.val).1.byte :: (element.key.bytes ++ 0 :: (encodeValue element.val).2)

def encodeElements (doc : Doc) : Bytes := doc.flatMap encodeElement ++ [0]

/-- At most `fuel` elements and the zero byte behind them. -/
def decodeElements : Nat → Bytes → Option (Doc × Bytes)
  | 0, _ => none
  | _ + 1, [] => none
  | fuel + 1, byte :: bytes =>
      if byte = 0 then some ([], bytes)
      else
        (ElementType.ofByte? byte).bind fun type =>
          (takeString bytes).bind fun (key, rest) =>
            (decodeValue rest type).bind fun (val, rest) =>
              (decodeElements fuel rest).map fun (doc, rest) => (⟨key, val⟩ :: doc, rest)

/-- The length in front of a document is written, but not needed to read it. -/
def bsonCodec : Codec where
  encode doc := le 4 ((encodeElements doc).length + 4) ++ encodeElements doc
  decode bytes :=
    (takeBytes 4 bytes).bind fun (_, rest) => decodeElements (rest.length + 1) rest

theorem ElementType.ofByte?_byte (type : ElementType) : ofByte? type.byte = some type := by
  cases type <;> rfl

theorem ElementType.byte_ne_zero (type : ElementType) : type.byte ≠ 0 := by
  cases type <;> decide

@[simp] theorem length_le (width number : Nat) : (le width number).length = width := by
  induction width generalizing number with
  | zero => rfl
  | succ width inductionHypothesis => rw [le, List.length_cons, inductionHypothesis]

theorem ofLe_le (width number : Nat) : ofLe (le width number) = number % 256 ^ width := by
  induction width generalizing number with
  | zero => rw [le, ofLe, pow_zero, Nat.mod_one]
  | succ width inductionHypothesis =>
      have digit : (UInt8.ofNat number).toNat = number % 256 := UInt8.toNat_ofNat'
      have split : number % 256 ^ (width + 1) =
          number % 256 + 256 * (number / 256 % 256 ^ width) := by
        rw [pow_succ', Nat.mod_mul]
      rw [le, ofLe, inductionHypothesis, digit, split]

theorem ofLe_le_of_lt {width number : Nat} (bounded : number < 256 ^ width) :
    ofLe (le width number) = number :=
  (ofLe_le width number).trans (Nat.mod_eq_of_lt bounded)

section RoundTrips

variable (rest : Bytes)

theorem takeBytes_append {count : Nat} {bytes : Bytes} (length : bytes.length = count) :
    takeBytes count (bytes ++ rest) = some (bytes, rest) := by
  have enough : count ≤ (bytes ++ rest).length := by
    rw [List.length_append, length]
    exact Nat.le_add_right _ _
  rw [takeBytes, if_pos enough, List.take_left' length, List.drop_left' length]

theorem takeString_append (str : CString) :
    takeString (str.bytes ++ 0 :: rest) = some (str, rest) := by
  obtain ⟨bytes, noNul⟩ := str
  induction bytes with
  | nil => rfl
  | cons byte bytes inductionHypothesis =>
      obtain ⟨nonzero, noNul⟩ := not_or.mp (mt List.mem_cons.mpr noNul)
      have found := inductionHypothesis noNul
      simp only at found
      simp only [List.cons_append, takeString, found, Option.map_some, dif_neg (Ne.symm nonzero)]

theorem takeMarked_append (data : Bytes) :
    takeMarked (marked data ++ rest) = some (data, rest) := by
  induction data with
  | nil => cases rest <;> rfl
  | cons byte data inductionHypothesis =>
      simp only [marked, List.cons_append, takeMarked, inductionHypothesis, Option.map_some]
      rfl

theorem takeSized_append {data : Bytes} (sized : Sized data) :
    takeSized (data ++ rest) = some (data, rest) := by
  obtain ⟨least, length⟩ := sized
  have front : takeBytes 4 (data ++ rest) = some (data.take 4, (data ++ rest).drop 4) := by
    have enough : 4 ≤ (data ++ rest).length := by
      rw [List.length_append]
      exact Nat.le_add_right_of_le least
    rw [takeBytes, if_pos enough, List.take_append_of_le_length least]
  simp only [takeSized, front, Option.bind_some, length, if_pos least]
  exact takeBytes_append rest rfl

@[simp] theorem short?_bytes (data : Short) : short? (data.bytes, rest) = some (data, rest) :=
  dif_pos data.fits

theorem decodeValue_encodeValue (val : Value) :
    decodeValue ((encodeValue val).2 ++ rest) (encodeValue val).1 = some (val, rest) := by
  cases val with
  | int32 value =>
      have digits := takeBytes_append rest (length_le 4 value.toUInt32.toNat)
      have bounded : value.toUInt32.toNat < 256 ^ 4 := value.toUInt32.toNat_lt
      simp only [encodeValue, decodeValue, digits, Option.map_some, ofLe_le_of_lt bounded,
        UInt32.ofNat_toNat, Int32.toInt32_toUInt32]
  | int64 value =>
      have digits := takeBytes_append rest (length_le 8 value.toUInt64.toNat)
      have bounded : value.toUInt64.toNat < 256 ^ 8 := value.toUInt64.toNat_lt
      simp only [encodeValue, decodeValue, digits, Option.map_some, ofLe_le_of_lt bounded,
        UInt64.ofNat_toNat, Int64.toInt64_toUInt64]
  | double bits =>
      have digits := takeBytes_append rest (length_le 8 bits.toNat)
      have bounded : bits.toNat < 256 ^ 8 := bits.toNat_lt
      simp only [encodeValue, decodeValue, digits, Option.map_some, ofLe_le_of_lt bounded,
        UInt64.ofNat_toNat]
  | utf8 str fits =>
      have digits := takeBytes_append (str.bytes ++ 0 :: rest)
        (length_le 4 (str.bytes.length + 1))
      simp only [encodeValue, decodeValue, List.append_assoc, List.cons_append, List.nil_append,
        digits, Option.bind_some, takeString_append rest str, dif_pos fits]
  | array data | document data =>
      by_cases sized : Sized data.bytes
      · simp only [encodeValue, if_pos sized, decodeValue, takeSized_append rest sized,
          Option.bind_some, short?_bytes, Option.map_some]
      · simp only [encodeValue, if_neg sized, decodeValue, takeMarked_append rest data.bytes,
          Option.bind_some, short?_bytes, Option.map_some]

theorem decodeElements_encodeElements
    {fuel : Nat} (doc : Doc) (enough : doc.length < fuel) :
    decodeElements fuel (encodeElements doc ++ rest) = some (doc, rest) := by
  induction doc generalizing fuel with
  | nil =>
      obtain ⟨fuel, rfl⟩ := Nat.exists_eq_succ_of_ne_zero (Nat.ne_of_gt enough)
      rfl
  | cons element doc inductionHypothesis =>
      obtain ⟨fuel, rfl⟩ := Nat.exists_eq_succ_of_ne_zero (Nat.ne_of_gt (Nat.zero_lt_of_lt enough))
      have later := inductionHypothesis (Nat.lt_of_succ_lt_succ enough)
      have key := takeString_append ((encodeValue element.val).2 ++ (encodeElements doc ++ rest))
        element.key
      have val := decodeValue_encodeValue (encodeElements doc ++ rest) element.val
      have shape : encodeElements (element :: doc) ++ rest =
          (encodeValue element.val).1.byte :: (element.key.bytes ++
            0 :: ((encodeValue element.val).2 ++ (encodeElements doc ++ rest))) := by
        simp [encodeElements, encodeElement]
      rw [shape]
      simp only [decodeElements, if_neg (ElementType.byte_ne_zero _), ElementType.ofByte?_byte,
        key, Option.bind_some, val, later, Option.map_some]

theorem length_le_encodeElements (doc : Doc) : doc.length < (encodeElements doc).length := by
  induction doc with
  | nil => exact Nat.one_pos
  | cons element doc inductionHypothesis =>
      simp only [encodeElements, List.flatMap_cons, List.length_append, List.length_cons,
        encodeElement] at inductionHypothesis ⊢
      omega

end RoundTrips

/-- What a reader answers depends on the bytes it takes, and it leaves the others. -/
def TakesFront {α : Type} (parse : Bytes → Option (α × Bytes)) : Prop :=
  ∀ ⦃bytes : Bytes⦄ ⦃answer : α⦄ ⦃rest : Bytes⦄, parse bytes = some (answer, rest) →
    ∃ front, bytes = front ++ rest ∧ ∀ more, parse (front ++ more) = some (answer, more)

namespace TakesFront

variable {α β : Type}

theorem bind
    {parse : Bytes → Option (α × Bytes)} {next : α → Bytes → Option (β × Bytes)}
    (takes : TakesFront parse) (takesNext : ∀ answer, TakesFront (next answer)) :
    TakesFront fun bytes => (parse bytes).bind fun (answer, rest) => next answer rest := by
  intro bytes answer rest parsed
  obtain ⟨⟨first, left⟩, found, parsedNext⟩ := Option.bind_eq_some_iff.mp parsed
  obtain ⟨front, rfl, again⟩ := takes found
  obtain ⟨front', rfl, again'⟩ := takesNext first parsedNext
  refine ⟨front ++ front', (List.append_assoc _ _ _).symm, fun more => ?_⟩
  simp only [List.append_assoc, again, Option.bind_some, again']

theorem map
    {parse : Bytes → Option (α × Bytes)} (takes : TakesFront parse) (make : α → β) :
    TakesFront fun bytes => (parse bytes).map fun (answer, rest) => (make answer, rest) := by
  intro bytes answer rest parsed
  obtain ⟨⟨first, left⟩, found, same⟩ := Option.map_eq_some_iff.mp parsed
  cases same
  obtain ⟨front, shape, again⟩ := takes found
  exact ⟨front, shape, fun more => by simp only [again, Option.map_some]⟩

theorem check (holds : α → Prop) [DecidablePred holds] (make : (answer : α) → holds answer → β)
    (answer : α) :
    TakesFront fun rest => if fits : holds answer then some (make answer fits, rest) else none := by
  intro bytes made rest parsed
  obtain ⟨fits, same⟩ := Option.dite_none_right_eq_some.mp parsed
  cases same
  exact ⟨[], rfl, fun more => dif_pos fits⟩

theorem takeBytes (count : Nat) : TakesFront (takeBytes count) := by
  intro bytes front rest taken
  obtain ⟨enough, same⟩ := Option.ite_none_right_eq_some.mp taken
  cases same
  refine ⟨bytes.take count, (List.take_append_drop count bytes).symm, fun more => ?_⟩
  exact takeBytes_append more (List.length_take_of_le enough)

theorem takeString : TakesFront takeString := by
  intro bytes str rest taken
  induction bytes generalizing str with
  | nil => cases taken
  | cons byte bytes inductionHypothesis =>
      unfold Bson.takeString at taken
      split at taken
      case isTrue zero =>
        cases taken
        exact ⟨[byte], rfl, fun more => dif_pos zero⟩
      case isFalse nonzero =>
        obtain ⟨⟨later, left⟩, found, same⟩ := Option.map_eq_some_iff.mp taken
        cases same
        obtain ⟨front, shape, again⟩ := inductionHypothesis found
        refine ⟨byte :: front, congrArg (byte :: ·) shape, fun more => ?_⟩
        simp only [List.cons_append, Bson.takeString, dif_neg nonzero, again, Option.map_some]

theorem takeMarked : TakesFront takeMarked := by
  intro bytes data rest taken
  induction bytes using takeMarked.induct generalizing data with
  | case1 => cases taken
  | case2 =>
      cases taken
      exact ⟨[0], rfl, fun more => takeMarked_append more []⟩
  | case3 mark nonzero =>
      rw [Bson.takeMarked, if_neg nonzero] at taken
      cases taken
  | case4 byte bytes =>
      cases taken
      exact ⟨[0], rfl, fun more => takeMarked_append more []⟩
  | case5 mark byte bytes nonzero inductionHypothesis =>
      rw [Bson.takeMarked, if_neg nonzero] at taken
      obtain ⟨⟨later, left⟩, found, same⟩ := Option.map_eq_some_iff.mp taken
      cases same
      obtain ⟨front, shape, again⟩ := inductionHypothesis found
      refine ⟨mark :: byte :: front, congrArg (mark :: byte :: ·) shape, fun more => ?_⟩
      simp only [List.cons_append, Bson.takeMarked, if_neg nonzero, again, Option.map_some]

theorem takeSized : TakesFront takeSized := by
  intro bytes data rest taken
  obtain ⟨⟨length, _⟩, four, taken⟩ := Option.bind_eq_some_iff.mp taken
  obtain ⟨_, same⟩ := Option.ite_none_right_eq_some.mp four
  cases same
  obtain ⟨least, sized⟩ := Option.ite_none_right_eq_some.mp taken
  obtain ⟨enough, same⟩ := Option.ite_none_right_eq_some.mp sized
  cases same
  refine ⟨_, (List.take_append_drop _ bytes).symm, fun more => takeSized_append more ?_⟩
  rw [Sized, List.length_take_of_le enough, List.take_take, min_eq_left least]
  exact ⟨least, rfl⟩

theorem decodeValue (type : ElementType) : TakesFront (decodeValue · type) := by
  have short : ∀ data, TakesFront fun rest => short? (data, rest) :=
    check (fun data : Bytes => data.length < 2 ^ 32) Short.mk
  cases type with
  | int32 => exact (takeBytes 4).map fun digits => Value.int32 (UInt32.ofNat (ofLe digits)).toInt32
  | int64 => exact (takeBytes 8).map fun digits => Value.int64 (UInt64.ofNat (ofLe digits)).toInt64
  | double => exact (takeBytes 8).map fun digits => Value.double (UInt64.ofNat (ofLe digits))
  | utf8 =>
      exact (takeBytes 4).bind fun _ =>
        takeString.bind (check (fun str : CString => str.bytes.length < 2 ^ 32) Value.utf8)
  | array => exact (takeSized.bind short).map Value.array
  | document => exact (takeSized.bind short).map Value.document
  | rawArray => exact (takeMarked.bind short).map Value.array
  | rawDocument => exact (takeMarked.bind short).map Value.document

theorem decodeElements (fuel : Nat) : TakesFront (decodeElements fuel) := by
  induction fuel with
  | zero => exact fun _ _ _ decoded => nomatch decoded
  | succ fuel inductionHypothesis =>
      intro bytes doc rest decoded
      cases bytes with
      | nil => cases decoded
      | cons byte bytes =>
          rw [Bson.decodeElements] at decoded
          split at decoded
          case isTrue zero =>
            cases decoded
            exact ⟨[byte], rfl, fun more => if_pos zero⟩
          case isFalse nonzero =>
            obtain ⟨type, known, decoded⟩ := Option.bind_eq_some_iff.mp decoded
            have element := takeString.bind fun key =>
              (decodeValue type).bind fun val => inductionHypothesis.map (⟨key, val⟩ :: ·)
            obtain ⟨front, rfl, again⟩ := element decoded
            refine ⟨byte :: front, rfl, fun more => ?_⟩
            rw [List.cons_append, Bson.decodeElements, if_neg nonzero, known, Option.bind_some]
            exact again more

theorem length_le
    {parse : Bytes → Option (α × Bytes)} (takes : TakesFront parse) {bytes rest : Bytes}
    {answer : α} (parsed : parse bytes = some (answer, rest)) : rest.length ≤ bytes.length := by
  obtain ⟨front, rfl, _⟩ := takes parsed
  rw [List.length_append]
  exact Nat.le_add_left _ _

end TakesFront

theorem decodeElements_mono
    {fuel more : Nat} {bytes : Bytes} {answer : Doc × Bytes}
    (decoded : decodeElements fuel bytes = some answer) (least : fuel ≤ more) :
    decodeElements more bytes = some answer := by
  induction fuel generalizing more bytes answer with
  | zero => cases decoded
  | succ fuel inductionHypothesis =>
      obtain ⟨more, rfl⟩ := Nat.exists_eq_succ_of_ne_zero (Nat.ne_of_gt (Nat.zero_lt_of_lt least))
      cases bytes with
      | nil => cases decoded
      | cons byte bytes =>
          rw [decodeElements] at decoded ⊢
          split at decoded
          case isTrue zero => exact (if_pos zero).trans decoded
          case isFalse nonzero =>
            obtain ⟨type, known, decoded⟩ := Option.bind_eq_some_iff.mp decoded
            obtain ⟨⟨key, left⟩, string, decoded⟩ := Option.bind_eq_some_iff.mp decoded
            obtain ⟨⟨val, left'⟩, value, decoded⟩ := Option.bind_eq_some_iff.mp decoded
            obtain ⟨later, elements, same⟩ := Option.map_eq_some_iff.mp decoded
            have again := inductionHypothesis elements (Nat.le_of_succ_le_succ least)
            simp only [if_neg nonzero, known, Option.bind_some, string, value, again,
              Option.map_some, ← same]

theorem bsonCodec_decode_encode (doc : Doc) (rest : Bytes) :
    bsonCodec.decode (bsonCodec.encode doc ++ rest) = some (doc, rest) := by
  have length := takeBytes_append (encodeElements doc ++ rest)
    (length_le 4 ((encodeElements doc).length + 4))
  have enough : doc.length < (encodeElements doc ++ rest).length + 1 := by
    rw [List.length_append]
    have elements := length_le_encodeElements doc
    omega
  simp only [bsonCodec, List.append_assoc, length, Option.bind_some]
  exact decodeElements_encodeElements rest doc enough

theorem bsonCodec_decode_append
    {bytes rest : Bytes} {doc : Doc} (decoded : bsonCodec.decode bytes = some (doc, rest))
    (more : Bytes) : bsonCodec.decode (bytes ++ more) = some (doc, rest ++ more) := by
  obtain ⟨⟨digits, left⟩, taken, elements⟩ := Option.bind_eq_some_iff.mp decoded
  obtain ⟨front, rfl, again⟩ := TakesFront.takeBytes 4 taken
  obtain ⟨front', rfl, again'⟩ := TakesFront.decodeElements _ elements
  simp only [bsonCodec, List.append_assoc, again, Option.bind_some]
  refine decodeElements_mono (again' (rest ++ more)) ?_
  simp only [List.length_append]
  omega

theorem bsonCodec_reads : bsonCodec.Reads where
  shorter bytes doc rest decoded := by
    obtain ⟨⟨digits, left⟩, taken, elements⟩ := Option.bind_eq_some_iff.mp decoded
    have lengths := (TakesFront.decodeElements _).length_le elements
    obtain ⟨enough, same⟩ := Option.ite_none_right_eq_some.mp taken
    cases same
    rw [List.length_drop] at lengths
    omega

theorem bsonCodec_lawful (docs : List Doc) : bsonCodec.Lawful docs where
  toReads := bsonCodec_reads
  roundTrip doc _ rest := bsonCodec_decode_encode doc rest

theorem bsonCodec_delimits : bsonCodec.Delimits where
  roundTrip doc _ := by
    have decoded := bsonCodec_decode_encode doc []
    rwa [List.append_nil] at decoded
  whole doc count found short decoded := by
    have again := bsonCodec_decode_append decoded ((bsonCodec.encode doc).drop count)
    rw [List.take_append_drop, ← (bsonCodec.encode doc).append_nil,
      bsonCodec_decode_encode] at again
    have left := congrArg (fun answer => answer.elim 0 (·.2.length)) again
    simp only [Option.elim_some, List.append_nil, List.nil_append, List.length_nil,
      List.length_drop] at left
    omega

example : bsonCodec.encode [⟨⟨[48], by decide⟩, .int32 7⟩] =
    [12, 0, 0, 0, 0x10, 48, 0, 7, 0, 0, 0, 0] := by decide

end Bson

end Tpt
