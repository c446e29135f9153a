import Mathlib.Tactic

/-!
Documents and what `bson_api.c` takes from libbson.

A document is the list of its elements.  A value that holds an array or a
document holds its serialised bytes.  A `bson_value_t` refers to bytes, and says
with a `uint32_t` how many of them are meant; libbson reads no others.
-/

namespace Tpt

namespace Bson

abbrev Bytes := List UInt8

/-- A C string: its bytes without the terminating zero. -/
structure CString where
  bytes : Bytes
  noNul : 0 ∉ bytes
  deriving DecidableEq

structure Short where
  bytes : Bytes
  fits : bytes.length < 2 ^ 32
  deriving DecidableEq

/-- A value in a document; a double is its 64 bits. -/
inductive Value where
  | int32 (value : Int32)
  | int64 (value : Int64)
  | double (bits : UInt64)
  | utf8 (str : CString) (fits : str.bytes.length < 2 ^ 32)
  | array (data : Short)
  | document (data : Short)
  deriving DecidableEq

structure Element where
  key : CString
  val : Value
  deriving DecidableEq

abbrev Doc := List Element

/-- A pointer to bytes, with the `uint32_t` that says how many are meant. -/
structure Span where
  len : UInt32
  bytes : Bytes
  held : len.toNat ≤ bytes.length
  deriving DecidableEq

def Span.of (bytes : Bytes) : Span where
  len := UInt32.ofNat bytes.length
  bytes := bytes
  held := by
    rw [UInt32.toNat_ofNat']
    exact Nat.mod_le _ _

def Span.read (span : Span) : Bytes := span.bytes.take span.len.toNat

theorem Span.length_read (span : Span) : span.read.length = span.len.toNat := by
  rw [Span.read, List.length_take, min_eq_left span.held]

theorem Span.length_read_lt (span : Span) : span.read.length < 2 ^ 32 := by
  rw [span.length_read]
  exact span.len.toNat_lt

theorem Span.read_of {bytes : Bytes} (fits : bytes.length < 2 ^ 32) :
    (Span.of bytes).read = bytes := by
  refine List.take_of_length_le ?_
  rw [Span.of, UInt32.toNat_ofNat', Nat.mod_eq_of_lt fits]

def Span.str (span : Span) (noNul : 0 ∉ span.bytes) : CString where
  bytes := span.read
  noNul found := noNul (List.mem_of_mem_take found)

/-- `bson_value_t`: `v_utf8` and `v_doc` refer to bytes. -/
inductive BsonValue where
  | int32 (value : Int32)
  | int64 (value : Int64)
  | double (bits : UInt64)
  | utf8 (str : Span) (noNul : 0 ∉ str.bytes)
  | array (doc : Span)
  | document (doc : Span)
  deriving DecidableEq

structure BsonElement where
  key : CString
  val : BsonValue
  deriving DecidableEq

/-- The bytes that a value says are meant. -/
def BsonValue.content : BsonValue → Value
  | .int32 value => .int32 value
  | .int64 value => .int64 value
  | .double bits => .double bits
  | .utf8 str noNul => .utf8 (str.str noNul) str.length_read_lt
  | .array doc => .array ⟨doc.read, doc.length_read_lt⟩
  | .document doc => .document ⟨doc.read, doc.length_read_lt⟩

def bsonIterValue : Value → BsonValue
  | .int32 value => .int32 value
  | .int64 value => .int64 value
  | .double bits => .double bits
  | .utf8 str _ => .utf8 (.of str.bytes) str.noNul
  | .array data => .array (.of data.bytes)
  | .document data => .document (.of data.bytes)

@[simp]
theorem content_bsonIterValue (val : Value) : (bsonIterValue val).content = val := by
  cases val with
  | int32 | int64 | double => rfl
  | utf8 str fits => simp only [bsonIterValue, BsonValue.content, Span.str, Span.read_of fits]
  | array data | document data =>
      simp only [bsonIterValue, BsonValue.content, Span.read_of data.fits]

def BsonElement.content (element : BsonElement) : Element := ⟨element.key, element.val.content⟩

def bsonIterElement (element : Element) : BsonElement := ⟨element.key, bsonIterValue element.val⟩

def appendValue (doc : Doc) (key : CString) (val : BsonValue) : Doc := doc ++ [⟨key, val.content⟩]

/-- The codes of `bson_errors.h` that the functions return. -/
inductive BsonErr where
  | success
  | nullParams
  | memAlloc
  | creatNew
  | readerTell
  | readerRead
  deriving DecidableEq

/-- The serialised form of a document, and the document at the front of a
buffer with what follows it. -/
structure Codec where
  encode : Doc → Bytes
  decode : Bytes → Option (Doc × Bytes)

/-- A document takes up some bytes. -/
structure Codec.Reads (codec : Codec) : Prop where
  shorter : ∀ bytes doc rest, codec.decode bytes = some (doc, rest) → rest.length < bytes.length

/-- The encodings of these documents are read back, whatever follows them. -/
structure Codec.Lawful (codec : Codec) (docs : List Doc) : Prop extends codec.Reads where
  roundTrip : ∀ doc ∈ docs, ∀ rest, codec.decode (codec.encode doc ++ rest) = some (doc, rest)

/-- Encodings whose length is a `uint32_t` are read back, and the beginning of
an encoding is never a whole one. -/
structure Codec.Delimits (codec : Codec) : Prop where
  roundTrip : ∀ doc, (codec.encode doc).length < 2 ^ 32 →
    codec.decode (codec.encode doc) = some (doc, [])
  whole : ∀ doc count found, count < (codec.encode doc).length →
    codec.decode ((codec.encode doc).take count) ≠ some (found, [])

/-- A buffer is documents followed by a tail that does not begin with one. -/
inductive Splits (codec : Codec) : Bytes → List Doc → Bytes → Prop where
  | nil {tail} : codec.decode tail = none → Splits codec tail [] tail
  | cons {bytes doc rest docs tail} :
      codec.decode bytes = some (doc, rest) →
      Splits codec rest docs tail →
      Splits codec bytes (doc :: docs) tail

section Splitting

variable {codec : Codec}

theorem Codec.Reads.decode_nil (reads : codec.Reads) : codec.decode [] = none := by
  cases decoded : codec.decode [] with
  | none => rfl
  | some answer => exact absurd (reads.shorter [] answer.1 answer.2 decoded) (Nat.not_lt_zero _)

theorem Codec.Reads.splits (reads : codec.Reads) (bytes : Bytes) :
    ∃ docs tail, Splits codec bytes docs tail := by
  induction length : bytes.length using Nat.strong_induction_on generalizing bytes with
  | h _ inductionHypothesis =>
      cases decoded : codec.decode bytes with
      | none => exact ⟨[], bytes, .nil decoded⟩
      | some answer =>
          obtain ⟨doc, rest⟩ := answer
          have shorter := reads.shorter bytes doc rest decoded
          obtain ⟨docs, tail, splits⟩ := inductionHypothesis _ (length ▸ shorter) rest rfl
          exact ⟨doc :: docs, tail, .cons decoded splits⟩

theorem Codec.Lawful.mono
    {docs some : List Doc} (lawful : codec.Lawful docs) (subset : some ⊆ docs) :
    codec.Lawful some where
  toReads := lawful.toReads
  roundTrip doc member := lawful.roundTrip doc (subset member)

theorem Codec.Lawful.splits_encode {docs : List Doc} (lawful : codec.Lawful docs) :
    Splits codec (docs.flatMap codec.encode) docs [] := by
  induction docs with
  | nil => exact .nil lawful.decode_nil
  | cons doc docs inductionHypothesis =>
      refine .cons ?_ (inductionHypothesis (lawful.mono (List.subset_cons_self doc docs)))
      rw [List.flatMap_cons]
      exact lawful.roundTrip doc List.mem_cons_self _

theorem Splits.length_le
    {bytes tail : Bytes} {docs : List Doc} (reads : codec.Reads)
    (splits : Splits codec bytes docs tail) : docs.length + tail.length ≤ bytes.length := by
  induction splits with
  | nil _ => exact (Nat.zero_add _).le
  | cons decoded _ inductionHypothesis =>
      have shorter := reads.shorter _ _ _ decoded
      rw [List.length_cons]
      omega

end Splitting

end Bson

end Tpt
