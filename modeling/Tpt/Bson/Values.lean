import Tpt.Bson.Buffer
import Tpt.Lib.Decimal

/-!
Values that hold arrays and documents: how they are made of values and
elements, and how these are got back.
-/

namespace Tpt

namespace Bson

structure ValueAllocs where
  bsonNew : Bool
  realloc : Bool
  malloc : Bool
  calloc : Bool

def bsonValueSetInt32 (i32 : UInt32) : BsonValue := .int32 i32.toInt32

def bsonValueSetInt64 (i64 : UInt64) : BsonValue := .int64 i64.toInt64

def bsonValueSetDouble (bits : UInt64) : BsonValue := .double bits

def bsonValueSetStr (str : CString) : BsonValue := .utf8 (.of str.bytes) str.noNul

def bsonUint32ToString (value : Nat) : CString :=
  ⟨decimal value, NotInNumbers.not_mem_decimal (by decide) value⟩

/-- Append the entries of an array from index `i` on; a missing one is read
outside its block. -/
def appendEntries (entry : Nat → Option BsonElement) : Nat → Nat → Doc → Option Doc
  | _, 0, doc => some doc
  | i, left + 1, doc =>
      (entry i).bind fun element =>
        appendEntries entry (i + 1) left (appendValue doc element.key element.val)

/-- The value of a written document; its length becomes the `uint32_t` of
`v_doc`. -/
def embed (wrap : Span → BsonValue) (written : Written) :
    Outcome (BsonErr × Option BsonValue) :=
  .returned (written.ret, written.buf.map fun buf => wrap (.of buf))

/-- `bson_value_set_array`; the pointer to the values may be `NULL`. -/
def bsonValueSetArray (codec : Codec) (allocs : ValueAllocs)
    (arrVals : Option (List BsonValue)) (arrLen : Int) : Outcome (BsonErr × Option BsonValue) :=
  match arrVals with
  | none => .returned (.nullParams, none)
  | some vals =>
      if allocs.bsonNew then
        let entry i := vals[i]?.map (BsonElement.mk (bsonUint32ToString i))
        match appendEntries entry 0 arrLen.toNat [] with
        | none => .faulted
        | some doc => embed .array (bsonWriteToBuffer codec allocs.realloc [doc])
      else .returned (.creatNew, none)

def bsonValueSetDoc (codec : Codec) (allocs : ValueAllocs) (doc : Doc) :
    Outcome (BsonErr × Option BsonValue) :=
  embed .document (bsonWriteToBuffer codec allocs.realloc [doc])

/-- `bson_doc_create`.  It asks whether `bdoc`, and not `*bdoc`, is `NULL`, so
elements may be appended to no document. -/
def bsonDocCreate (allocs : ValueAllocs) (earr : Option (List BsonElement)) (ecount : Int) :
    Outcome (BsonErr × Option Doc) :=
  match earr with
  | none => .returned (.nullParams, none)
  | some elements =>
      if allocs.bsonNew then
        match appendEntries (elements[·]?) 0 ecount.toNat [] with
        | none => .faulted
        | some doc => .returned (.success, some doc)
      else if ecount ≤ 0 then .returned (.success, none)
      else .faulted

/-- `v_doc` of a value; of other values it is no pointer. -/
def BsonValue.vDoc : BsonValue → Option Span
  | .array doc => some doc
  | .document doc => some doc
  | _ => none

/-- `bson_new_from_data`: the bytes are one document. -/
def bsonNewFromData (codec : Codec) (data : Span) : Option Doc :=
  match codec.decode data.read with
  | some (doc, []) => some doc
  | _ => none

/-- `bson_count_keys`, as an `int`. -/
def bsonCountKeys (doc : Doc) : Int := Int.bmod doc.length (2 ^ 32)

/-- The loops that copy what the iterator visits to an array of this capacity,
from index `count` on. -/
def fillArray {α : Type} (copy : Element → α) (capacity : Nat) : Nat → Doc → Option (List α)
  | _, [] => some []
  | count, element :: doc =>
      if count < capacity then
        (fillArray copy capacity (count + 1) doc).map (copy element :: ·)
      else none

/-- What a getter returns: a code, and the array and its length where they are
set. -/
structure Got (α : Type) where
  ret : BsonErr
  array : Option (List α)
  count : Option Int

/-- Count the elements of a document, allocate an array for them and fill it; a
negative count is more than an allocator can give. -/
def getArray {α : Type} (copy : Element → α) (allocated : Bool) (doc : Doc) : Outcome (Got α) :=
  let count := bsonCountKeys doc
  if count = 0 then .returned ⟨.success, none, count⟩
  else if allocated && decide (0 < count) then
    match fillArray copy count.toNat 0 doc with
    | none => .faulted
    | some list => .returned ⟨.success, some list, count⟩
  else .returned ⟨.memAlloc, none, count⟩

def bsonValueGetArray (codec : Codec) (allocs : ValueAllocs) (val : BsonValue) :
    Outcome (Got BsonValue) :=
  match val.vDoc with
  | none => .faulted
  | some data =>
      match bsonNewFromData codec data with
      | none => .returned ⟨.creatNew, none, none⟩
      | some doc => getArray (fun element => bsonIterValue element.val) allocs.malloc doc

def bsonValueGetDoc (codec : Codec) (val : BsonValue) : Outcome (BsonErr × Option Doc) :=
  match val.vDoc with
  | none => .faulted
  | some data =>
      match bsonNewFromData codec data with
      | none => .returned (.creatNew, none)
      | some doc => .returned (.success, some doc)

/-- `bson_doc_get_elements`, with `bson_fill_element_array`. -/
def bsonDocGetElements (allocs : ValueAllocs) (bdoc : Doc) : Outcome (Got BsonElement) :=
  getArray bsonIterElement allocs.calloc bdoc

def numbered (vals : List BsonValue) : List BsonElement :=
  vals.mapIdx fun i => BsonElement.mk (bsonUint32ToString i)

@[simp]
theorem length_numbered (vals : List BsonValue) : (numbered vals).length = vals.length :=
  List.length_mapIdx

def contents (elements : List BsonElement) : Doc := elements.map BsonElement.content

@[simp]
theorem length_contents (elements : List BsonElement) :
    (contents elements).length = elements.length :=
  List.length_map _

theorem contents_bsonIterElement (doc : Doc) : contents (doc.map bsonIterElement) = doc := by
  have back : BsonElement.content ∘ bsonIterElement = id := by
    funext element
    exact congrArg (Element.mk element.key) (content_bsonIterValue element.val)
  rw [contents, List.map_map, back, List.map_id]

theorem appendEntries_eq
    (elements : List BsonElement) (i left : Nat) (doc : Doc)
    (all : i + left = elements.length) :
    appendEntries (elements[·]?) i left doc = some (doc ++ contents (elements.drop i)) := by
  induction left generalizing i doc with
  | zero =>
      have none : elements.drop i = [] := List.drop_of_length_le all.ge
      rw [appendEntries, none, contents, List.map_nil, List.append_nil]
  | succ left inductionHypothesis =>
      have below : i < elements.length := by omega
      rw [appendEntries, List.getElem?_eq_getElem below, Option.bind_some,
        inductionHypothesis (i + 1) _ (by omega), appendValue, List.append_assoc,
        List.drop_eq_getElem_cons below]
      rfl

theorem bsonWriteToBuffer_singleton (codec : Codec) (doc : Doc) :
    bsonWriteToBuffer codec true [doc] =
      ⟨.success, some (codec.encode doc), (codec.encode doc).length⟩ := by
  have one : ([doc].take (2 ^ 31)).flatMap codec.encode = codec.encode doc := by simp
  rw [bsonWriteToBuffer_eq, one]

theorem fillArray_eq
    {α : Type} (copy : Element → α) (capacity count : Nat) (doc : Doc)
    (room : count + doc.length ≤ capacity) :
    fillArray copy capacity count doc = some (doc.map copy) := by
  induction doc generalizing count with
  | nil => rfl
  | cons element doc inductionHypothesis =>
      rw [List.length_cons] at room
      rw [fillArray, if_pos (by omega), inductionHypothesis (count + 1) (by omega)]
      rfl

theorem bsonCountKeys_eq {doc : Doc} (counted : doc.length < 2 ^ 31) :
    bsonCountKeys doc = doc.length :=
  Int.bmod_eq_of_le (by omega) (by omega)

/-- The array that a caller reads from a getter that succeeded. -/
def Got.list {α : Type} (got : Got α) : Option (List α) :=
  let count := (got.count.getD 0).toNat
  let list := got.array.getD []
  if got.ret = .success ∧ count ≤ list.length then some (list.take count) else none

section Calls

variable (allocs : ValueAllocs)

theorem bsonValueSetArray_eq
    (codec : Codec) (created : allocs.bsonNew = true) (resized : allocs.realloc = true)
    (vals : List BsonValue) :
    bsonValueSetArray codec allocs (some vals) vals.length =
      .returned (.success, some (.array (.of (codec.encode (contents (numbered vals)))))) := by
  have entries : (fun i => vals[i]?.map (BsonElement.mk (bsonUint32ToString i))) =
      ((numbered vals)[·]?) := by
    funext i
    rw [numbered, List.getElem?_mapIdx]
  simp only [bsonValueSetArray, if_pos created, entries, Int.toNat_natCast]
  rw [appendEntries_eq (numbered vals) 0 vals.length [] (by simp)]
  simp only [resized, bsonWriteToBuffer_singleton]
  rfl

theorem bsonDocCreate_eq (created : allocs.bsonNew = true) (elements : List BsonElement) :
    bsonDocCreate allocs (some elements) elements.length =
      .returned (.success, some (contents elements)) := by
  simp only [bsonDocCreate, if_pos created, Int.toNat_natCast]
  rw [appendEntries_eq elements 0 elements.length [] (Nat.zero_add _)]
  rfl

theorem bsonValueSetDoc_eq (codec : Codec) (resized : allocs.realloc = true) (doc : Doc) :
    bsonValueSetDoc codec allocs doc =
      .returned (.success, some (.document (.of (codec.encode doc)))) := by
  rw [bsonValueSetDoc, resized, bsonWriteToBuffer_singleton]
  rfl

/-- An encoding whose length is no `uint32_t` is cut, and what is left of it is
no document. -/
theorem bsonNewFromData_of {codec : Codec} (delimits : codec.Delimits) (doc : Doc) :
    bsonNewFromData codec (.of (codec.encode doc)) =
      if (codec.encode doc).length < 2 ^ 32 then some doc else none := by
  rw [bsonNewFromData]
  split_ifs with fits
  · rw [Span.read_of fits, delimits.roundTrip doc fits]
  · have cut := delimits.whole doc (UInt32.ofNat (codec.encode doc).length).toNat
    split
    · next found decoded =>
        refine absurd decoded (cut found ?_)
        exact (UInt32.toNat_lt _).trans_le (Nat.le_of_not_lt fits)
    · rfl

theorem bsonValueGetArray_of
    {codec : Codec} (delimits : codec.Delimits) {doc : Doc}
    (fits : (codec.encode doc).length < 2 ^ 32) :
    bsonValueGetArray codec allocs (.array (.of (codec.encode doc))) =
      getArray (fun element => bsonIterValue element.val) allocs.malloc doc := by
  simp only [bsonValueGetArray, BsonValue.vDoc, bsonNewFromData_of delimits, if_pos fits]

theorem bsonValueGetDoc_of
    {codec : Codec} (delimits : codec.Delimits) {doc : Doc}
    (fits : (codec.encode doc).length < 2 ^ 32) :
    bsonValueGetDoc codec (.document (.of (codec.encode doc))) =
      .returned (.success, some doc) := by
  simp only [bsonValueGetDoc, BsonValue.vDoc, bsonNewFromData_of delimits, if_pos fits]

/-- A getter gives the caller the elements, also where there are none and it
makes no array. -/
theorem getArray_list
    {α : Type} (copy : Element → α) {doc : Doc} (counted : doc.length < 2 ^ 31) :
    ∃ got, getArray copy true doc = .returned got ∧ got.list = some (doc.map copy) := by
  rw [getArray, bsonCountKeys_eq counted]
  cases doc with
  | nil => exact ⟨_, rfl, rfl⟩
  | cons element doc =>
      have positive : 0 < ((element :: doc).length : Int) :=
        Int.natCast_pos.mpr (Nat.succ_pos _)
      have filled := fillArray_eq copy (element :: doc).length 0 (element :: doc)
        (Nat.zero_add _).le
      refine ⟨⟨.success, some ((element :: doc).map copy), some (element :: doc).length⟩, ?_, ?_⟩
      · simp only [if_neg positive.ne', decide_eq_true positive, Bool.true_and, if_true,
          Int.toNat_natCast, filled]
      · simp [Got.list]

end Calls

end Bson

end Tpt
