import Tpt.Bson.Codec

/-!
`bson_write_to_buffer` and `bson_read_from_buffer`.

The outcomes of the allocations are parameters.  A store or a load outside the
array block has no result, so a call that returns made none.
-/

namespace Tpt

namespace Bson

def bsonDocCopyByIter : Doc → Doc → Doc
  | dst, [] => dst
  | dst, element :: src =>
      bsonDocCopyByIter (appendValue dst element.key (bsonIterValue element.val)) src

/-- The loop of `bson_buffer_write` from index `i` on.  The index is an `int`:
once it has wrapped it is, as a `size_t`, past any array. -/
def bsonBufferWrite (codec : Codec) : Nat → Bytes → List Doc → Bytes
  | _, written, [] => written
  | i, written, doc :: docs =>
      if i < 2 ^ 31 then
        bsonBufferWrite codec (i + 1) (written ++ codec.encode (bsonDocCopyByIter [] doc)) docs
      else written

/-- The return value of `bson_write_to_buffer`, `*buf` and `*buf_len`. -/
structure Written where
  ret : BsonErr
  buf : Option Bytes
  bufLen : Nat
  deriving DecidableEq

/-- `bson_write_to_buffer`, with the outcome of its last `realloc`. -/
def bsonWriteToBuffer (codec : Codec) (resized : Bool) (docArr : List Doc) : Written :=
  let written := bsonBufferWrite codec 0 [] docArr
  if resized then ⟨.success, some written, written.length⟩
  else ⟨.memAlloc, none, written.length⟩

/-- A document that `bson_copy` made, with its number among the copies. -/
structure Copy where
  number : Nat
  doc : Doc
  deriving DecidableEq

inductive Release where
  | free
  | bsonDestroy
  deriving DecidableEq

/-- The out-parameters of `bson_read_from_buffer`, and the memory of the call:
the slots of the array, how often it was freed, how many documents were copied
and which were released. -/
structure Reading where
  docArr : Option (List (Option Copy))
  arrLen : Nat
  parsedLen : Option Int
  arrayFrees : Nat
  copied : Nat
  released : List (Nat × Release)
  deriving DecidableEq

/-- How a call ends: with a result, at an access outside a block, or not within
the fuel. -/
inductive Outcome (α : Type) where
  | returned (result : α)
  | faulted
  | running
  deriving DecidableEq

/-- The outcomes of the allocations of a call: of the array, of its doublings
in their order, and of its last resizing. -/
structure Allocs where
  malloc : Bool
  growth : Nat → Bool
  shrink : Bool

def bsonArraySize : Int := 4

def sizeT (value : Int) : Nat := (value % 2 ^ 64).toNat

def arrayBytes (arrSize : Int) : Nat := sizeT arrSize * 8 % 2 ^ 64

/-- No block is larger than `PTRDIFF_MAX`. -/
def allocatable (bytes : Nat) : Bool := decide (bytes < 2 ^ 63)

def resize (slots : List (Option Copy)) (capacity : Nat) : List (Option Copy) :=
  slots.take capacity ++ List.replicate (capacity - slots.length) none

def entries : Nat → List (Option Copy) → Option (List Copy)
  | 0, _ => some []
  | count + 1, some copy :: slots => (entries count slots).map (copy :: ·)
  | _ + 1, _ => none

/-- The entries up to `*arr_len`; `NULL` has none. -/
def Reading.entries (out : Reading) : Option (List Copy) :=
  Bson.entries out.arrLen (out.docArr.getD [])

def Reading.store (out : Reading) (doc : Doc) : Option Reading :=
  out.docArr.bind fun slots =>
    if out.arrLen < slots.length then
      some { out with
        docArr := some (slots.set out.arrLen (some ⟨out.copied, doc⟩))
        arrLen := out.arrLen + 1
        copied := out.copied + 1 }
    else none

/-- The cleanup of the failing exits: every entry is freed, then the array. -/
def Reading.cleanup (out : Reading) : Option Reading :=
  out.entries.map fun copies =>
    { out with
      docArr := none
      arrayFrees := out.arrayFrees + out.docArr.isSome.toNat
      released := out.released ++ copies.map fun copy => (copy.number, .free) }

def Reading.fail {α : Type} (out : Reading) (result : Reading → α) : Outcome α :=
  match out.cleanup with
  | none => .faulted
  | some out => .returned (result out)

/-- The loop of `read_and_alloc_bson_array`; it leaves the return value and
what the reader has not read. -/
def readDocs (codec : Codec) (allocs : Allocs) :
    Nat → Bytes → Int → Nat → Reading → Outcome (BsonErr × Bytes × Reading)
  | 0, _, _, _, _ => .running
  | fuel + 1, bytes, arrSize, doublings, out =>
      match codec.decode bytes with
      | none => .returned (.success, bytes, out)
      | some (doc, rest) =>
          match out.store doc with
          | none => .faulted
          | some out =>
              if sizeT arrSize ≤ out.arrLen then
                let arrSize := Int.bmod (arrSize * 2) (2 ^ 32)
                if allocs.growth doublings && allocatable (arrayBytes arrSize) then
                  let docArr := out.docArr.map (resize · (arrayBytes arrSize / 8))
                  readDocs codec allocs fuel rest arrSize (doublings + 1) { out with docArr }
                else
                  Reading.fail { out with docArr := none } fun out => (.memAlloc, rest, out)
              else readDocs codec allocs fuel rest arrSize doublings out

def readAndAllocBsonArray (codec : Codec) (allocs : Allocs) (fuel : Nat) (buf : Bytes) :
    Outcome (BsonErr × Bytes × Reading) :=
  if allocs.malloc then
    let slots := List.replicate (arrayBytes bsonArraySize / 8) none
    readDocs codec allocs fuel buf bsonArraySize 0 ⟨some slots, 0, none, 0, 0, []⟩
  else .returned (.memAlloc, buf, ⟨none, 0, none, 0, 0, []⟩)

/-- `get_parsed_len`, with what `bson_reader_tell` returns. -/
def getParsedLen (tell : Int) (eof : Bool) (out : Reading) : BsonErr × Reading :=
  if eof then
    (if tell < 0 then .readerTell else .success, { out with parsedLen := some tell })
  else (.readerRead, out)

/-- The last `realloc` and what follows it; of no documents it leaves either no
block or an empty one. -/
def shrinkArray (allocs : Allocs) (out : Reading) : Outcome (BsonErr × Reading) :=
  if allocs.shrink then
    .returned (.success, { out with docArr := out.docArr.map (resize · out.arrLen) })
  else if out.arrLen = 0 then
    .returned (.success, { out with docArr := none, arrayFrees := out.arrayFrees + 1 })
  else out.fail fun out => (.memAlloc, out)

/-- `bson_read_from_buffer` on a buffer; the reader is at its end where nothing
is left. -/
def bsonReadFromBuffer (codec : Codec) (allocs : Allocs) (buf : Bytes) :
    Outcome (BsonErr × Reading) :=
  match readAndAllocBsonArray codec allocs (buf.length + 1) buf with
  | .faulted => .faulted
  | .running => .running
  | .returned (.success, rest, out) =>
      match getParsedLen (buf.length - rest.length) rest.isEmpty out with
      | (.success, out) => shrinkArray allocs out
      | (ret, out) => out.fail fun out => (ret, out)
  | .returned (ret, _, out) => .returned (ret, out)

theorem bsonDocCopyByIter_eq (dst src : Doc) : bsonDocCopyByIter dst src = dst ++ src := by
  induction src generalizing dst with
  | nil => exact (List.append_nil dst).symm
  | cons element src inductionHypothesis =>
      rw [bsonDocCopyByIter, inductionHypothesis, appendValue, content_bsonIterValue,
        List.append_assoc]
      rfl

theorem bsonBufferWrite_eq
    (codec : Codec) (i : Nat) (written : Bytes) (docs : List Doc) (bounded : i ≤ 2 ^ 31) :
    bsonBufferWrite codec i written docs =
      written ++ (docs.take (2 ^ 31 - i)).flatMap codec.encode := by
  induction docs generalizing i written with
  | nil => simp [bsonBufferWrite]
  | cons doc docs inductionHypothesis =>
      rw [bsonBufferWrite]
      split_ifs with below
      · have room : 2 ^ 31 - i = (2 ^ 31 - (i + 1)) + 1 := by omega
        rw [inductionHypothesis (i + 1) _ below, bsonDocCopyByIter_eq, room, List.take_succ_cons,
          List.flatMap_cons, List.append_assoc, List.nil_append]
      · rw [show 2 ^ 31 - i = 0 by omega]
        simp

theorem bsonWriteToBuffer_eq (codec : Codec) (docs : List Doc) :
    bsonWriteToBuffer codec true docs =
      ⟨.success, some ((docs.take (2 ^ 31)).flatMap codec.encode),
        ((docs.take (2 ^ 31)).flatMap codec.encode).length⟩ := by
  rw [bsonWriteToBuffer, bsonBufferWrite_eq codec 0 [] docs (Nat.zero_le _)]
  rfl

def copies (docs : List Doc) : List Copy := docs.mapIdx Copy.mk

@[simp]
theorem length_copies (docs : List Doc) : (copies docs).length = docs.length :=
  List.length_mapIdx

theorem copies_concat (docs : List Doc) (doc : Doc) :
    copies (docs ++ [doc]) = copies docs ++ [⟨docs.length, doc⟩] :=
  List.mapIdx_concat

theorem copies_doc (docs : List Doc) : (copies docs).map Copy.doc = docs := by
  induction docs using List.reverseRecOn with
  | nil => rfl
  | append_singleton docs doc inductionHypothesis =>
      rw [copies_concat, List.map_append, inductionHypothesis]
      rfl

def slots (docs : List Doc) (capacity : Nat) : List (Option Copy) :=
  (copies docs).map some ++ List.replicate (capacity - docs.length) none

theorem length_slots {docs : List Doc} {capacity : Nat} (held : docs.length ≤ capacity) :
    (slots docs capacity).length = capacity := by
  simp [slots, held]

theorem slots_set {docs : List Doc} {capacity : Nat} (doc : Doc) (room : docs.length < capacity) :
    (slots docs capacity).set docs.length (some ⟨docs.length, doc⟩) =
      slots (docs ++ [doc]) capacity := by
  obtain ⟨free, rfl⟩ := Nat.exists_eq_add_of_lt room
  have before : docs.length + free + 1 - docs.length = free + 1 := by omega
  have after : docs.length + free + 1 - (docs ++ [doc]).length = free := by
    rw [List.length_append, List.length_singleton]
    omega
  rw [slots, slots, List.set_append_right _ _ (by simp), before, after, copies_concat,
    List.replicate_succ]
  simp

theorem resize_slots
    {docs : List Doc} {capacity other : Nat}
    (held : docs.length ≤ capacity) (kept : docs.length ≤ other) :
    resize (slots docs capacity) other = slots docs other := by
  have copiesKept : ((copies docs).map some).take other = (copies docs).map some :=
    List.take_of_length_le (by simpa using kept)
  rw [resize, length_slots held, slots, slots, List.take_append, copiesKept, List.append_assoc,
    List.take_replicate, List.replicate_append_replicate]
  congr 2
  rw [List.length_map, length_copies]
  omega

theorem entries_append (list : List Copy) (slots : List (Option Copy)) :
    entries list.length (list.map some ++ slots) = some list := by
  induction list with
  | nil => rfl
  | cons copy list inductionHypothesis =>
      rw [List.length_cons, List.map_cons, List.cons_append, entries, inductionHypothesis]
      rfl

theorem entries_slots (docs : List Doc) (capacity : Nat) :
    entries docs.length (slots docs capacity) = some (copies docs) := by
  have found := entries_append (copies docs) (List.replicate (capacity - docs.length) none)
  rw [length_copies] at found
  exact found

/-- The state of a call that has read these documents to an array of this
capacity. -/
def filled (docs : List Doc) (capacity : Nat) : Reading where
  docArr := some (slots docs capacity)
  arrLen := docs.length
  parsedLen := none
  arrayFrees := 0
  copied := docs.length
  released := []

theorem store_filled
    {docs : List Doc} {capacity : Nat} (doc : Doc) (room : docs.length < capacity) :
    (filled docs capacity).store doc = some (filled (docs ++ [doc]) capacity) := by
  have fits : docs.length < (slots docs capacity).length := by
    rw [length_slots room.le]
    exact room
  simp only [Reading.store, filled, Option.bind_some, if_pos fits, slots_set doc room,
    List.length_append, List.length_singleton]

theorem sizeT_natCast {size : Nat} (bounded : size < 2 ^ 31) : sizeT size = size := by
  rw [sizeT]
  omega

theorem arrayBytes_natCast {size : Nat} (bounded : size < 2 ^ 31) :
    arrayBytes size = size * 8 := by
  rw [arrayBytes, sizeT_natCast bounded]
  omega

def arraySize (doublings : Nat) : Nat := 4 * 2 ^ doublings

/-- The doublings that reading so many documents asks for all succeed, and the
size is an `int` throughout. -/
def Grows (allocs : Allocs) (count : Nat) : Prop :=
  count < 2 ^ 30 ∧ ∀ k, arraySize k ≤ count → allocs.growth k = true

theorem arraySize_le {k : Nat} (bounded : k ≤ 28) : arraySize k ≤ 2 ^ 30 := by
  have powers : 2 ^ k ≤ 2 ^ 28 := Nat.pow_le_pow_right (by decide) bounded
  rw [arraySize]
  omega

theorem arraySize_strictMono : StrictMono arraySize := fun _ _ larger =>
  Nat.mul_lt_mul_of_pos_left (Nat.pow_lt_pow_right (by decide) larger) (by decide)

theorem arraySize_double {k : Nat} (bounded : k < 28) :
    Int.bmod ((arraySize k : Int) * 2) (2 ^ 32) = arraySize (k + 1) := by
  have double : (arraySize k : Int) * 2 = arraySize (k + 1) := by
    rw [arraySize, arraySize, Nat.pow_succ]
    push_cast
    ring
  have below : arraySize (k + 1) ≤ 2 ^ 30 := arraySize_le bounded
  rw [double]
  exact Int.bmod_eq_of_le (by omega) (by omega)

/-- The size after the twenty-eighth doubling has no double that is an `int`. -/
theorem arraySize_overflow :
    allocatable (arrayBytes (Int.bmod ((arraySize 28 : Int) * 2) (2 ^ 32))) = false := by
  decide

section Reading

variable {codec : Codec} {allocs : Allocs}

theorem readDocs_keep
    {bytes rest : Bytes} {doc : Doc} (decoded : codec.decode bytes = some (doc, rest))
    {prev : List Doc} {k : Nat} (fuel : Nat) (bounded : k ≤ 28)
    (room : prev.length + 1 < arraySize k) :
    readDocs codec allocs (fuel + 1) bytes (arraySize k) k (filled prev (arraySize k)) =
      readDocs codec allocs fuel rest (arraySize k) k (filled (prev ++ [doc]) (arraySize k)) := by
  have small := arraySize_le bounded
  have notFull : ¬ sizeT (arraySize k) ≤ (filled (prev ++ [doc]) (arraySize k)).arrLen := by
    rw [sizeT_natCast (by omega)]
    simpa [filled] using room
  rw [readDocs, decoded]
  simp only [store_filled doc (Nat.lt_of_succ_lt room), if_neg notFull]

theorem fail_null
    {α : Type} (prev : List Doc) (doc : Doc) (capacity : Nat) (result : Reading → α) :
    Reading.fail { filled (prev ++ [doc]) capacity with docArr := none } result = .faulted := by
  have noEntries :
      Reading.entries { filled (prev ++ [doc]) capacity with docArr := none } = none := by
    simp [Reading.entries, filled, entries]
  simp [Reading.fail, Reading.cleanup, noEntries]

theorem readDocs_full
    {bytes rest : Bytes} {doc : Doc} (decoded : codec.decode bytes = some (doc, rest))
    {prev : List Doc} {k : Nat} (fuel : Nat) (bounded : k ≤ 28)
    (full : prev.length + 1 = arraySize k) :
    readDocs codec allocs (fuel + 1) bytes (arraySize k) k (filled prev (arraySize k)) =
      if allocs.growth k = true ∧ k < 28 then
        readDocs codec allocs fuel rest (arraySize (k + 1)) (k + 1)
          (filled (prev ++ [doc]) (arraySize (k + 1)))
      else .faulted := by
  have small := arraySize_le bounded
  have isFull : sizeT (arraySize k) ≤ (filled (prev ++ [doc]) (arraySize k)).arrLen := by
    rw [sizeT_natCast (by omega)]
    simp [filled, full]
  have room : prev.length < arraySize k := by omega
  rw [readDocs, decoded]
  simp only [store_filled doc room, if_pos isFull, fail_null]
  rcases Nat.lt_or_eq_of_le bounded with more | rfl
  · have sizes : arraySize (k + 1) ≤ 2 ^ 30 := arraySize_le more
    have larger := arraySize_strictMono (Nat.lt_succ_self k)
    have bytesEq : arrayBytes (arraySize (k + 1)) = arraySize (k + 1) * 8 :=
      arrayBytes_natCast (by omega)
    have fits : allocatable (arraySize (k + 1) * 8) = true := by
      rw [allocatable, decide_eq_true_iff]
      omega
    have held : (prev ++ [doc]).length ≤ arraySize k := by simp [full]
    have resized := resize_slots held (held.trans larger.le)
    rw [arraySize_double more, bytesEq, fits, Nat.mul_div_cancel _ (by decide)]
    simp only [Bool.and_true, more, and_true, filled, Option.map_some, resized]
  · rw [arraySize_overflow]
    simp

/-- The loop copies the documents in their order, unless an enlarging of the
array fails; then it goes on to the entries of `NULL`. -/
theorem readDocs_filled
    {bytes tail : Bytes} {docs : List Doc} (splits : Splits codec bytes docs tail)
    (prev : List Doc) (k fuel : Nat)
    (room : prev.length < arraySize k) (bounded : k ≤ 28)
    (earlier : ∀ j < k, allocs.growth j = true) (enough : docs.length < fuel) :
    (Grows allocs (prev ++ docs).length ∧
      ∃ capacity, (prev ++ docs).length < capacity ∧
        readDocs codec allocs fuel bytes (arraySize k) k (filled prev (arraySize k)) =
          .returned (.success, tail, filled (prev ++ docs) capacity)) ∨
      (¬ Grows allocs (prev ++ docs).length ∧
        readDocs codec allocs fuel bytes (arraySize k) k (filled prev (arraySize k)) =
          .faulted) := by
  induction splits generalizing prev k fuel with
  | nil decoded =>
      obtain ⟨fuel, rfl⟩ := Nat.exists_eq_add_of_lt enough
      have small := arraySize_le bounded
      rw [List.append_nil]
      refine .inl ⟨⟨room.trans_le small, ?_⟩, arraySize k, room, ?_⟩
      · intro j needed
        by_cases before : j < k
        · exact earlier j before
        · have larger := arraySize_strictMono.monotone (Nat.le_of_not_lt before)
          exact absurd (larger.trans needed) room.not_ge
      · rw [readDocs, decoded]
  | cons decoded rest inductionHypothesis =>
      rename_i bytes doc rest docs tail
      obtain ⟨fuel, rfl⟩ : ∃ less, fuel = less + 1 := ⟨fuel - 1, by omega⟩
      have fewer : docs.length < fuel := by simpa using enough
      rw [List.append_cons]
      rcases Nat.lt_or_eq_of_le room with roomy | full
      · rw [readDocs_keep decoded fuel bounded roomy]
        exact inductionHypothesis (prev ++ [doc]) k fuel (by simpa using roomy) bounded earlier
          fewer
      · rw [readDocs_full decoded fuel bounded full]
        have reached : arraySize k ≤ (prev ++ [doc] ++ docs).length := by
          rw [List.length_append, List.length_append, List.length_singleton]
          exact full.ge.trans (Nat.le_add_right _ _)
        split_ifs with grown
        · refine inductionHypothesis (prev ++ [doc]) (k + 1) fuel ?_ grown.2 ?_ fewer
          · rw [List.length_append, List.length_singleton]
            exact full.trans_lt (arraySize_strictMono (Nat.lt_succ_self k))
          · intro j before
            rcases Nat.lt_succ_iff_lt_or_eq.mp before with before | rfl
            · exact earlier j before
            · exact grown.1
        · refine .inr ⟨fun grows => grown ⟨grows.2 k reached, ?_⟩, rfl⟩
          have notLast : arraySize k < arraySize 28 := reached.trans_lt grows.1
          exact arraySize_strictMono.lt_iff_lt.mp notLast

def freed (docs : List Doc) (parsedLen : Option Int) : Reading where
  docArr := none
  arrLen := docs.length
  parsedLen := parsedLen
  arrayFrees := 1
  copied := docs.length
  released := (copies docs).map fun copy => (copy.number, .free)

theorem fail_filled
    {α : Type} (docs : List Doc) (capacity : Nat) (parsedLen : Option Int)
    (result : Reading → α) :
    Reading.fail { filled docs capacity with parsedLen } result =
      .returned (result (freed docs parsedLen)) := by
  have found : Reading.entries { filled docs capacity with parsedLen } = some (copies docs) :=
    entries_slots docs capacity
  simp only [Reading.fail, Reading.cleanup, found, Option.map_some]
  rfl

theorem read_unallocated (unallocated : allocs.malloc = false) (buf : Bytes) :
    bsonReadFromBuffer codec allocs buf = .returned (.memAlloc, ⟨none, 0, none, 0, 0, []⟩) := by
  simp [bsonReadFromBuffer, readAndAllocBsonArray, unallocated]

variable {buf tail : Bytes} {docs : List Doc}

theorem readAndAllocBsonArray_filled
    (reads : codec.Reads) (splits : Splits codec buf docs tail)
    (allocated : allocs.malloc = true) :
    (Grows allocs docs.length ∧ ∃ capacity, docs.length < capacity ∧
      readAndAllocBsonArray codec allocs (buf.length + 1) buf =
        .returned (.success, tail, filled docs capacity)) ∨
      (¬ Grows allocs docs.length ∧
        readAndAllocBsonArray codec allocs (buf.length + 1) buf = .faulted) := by
  have enough : docs.length < buf.length + 1 :=
    Nat.lt_succ_of_le ((Nat.le_add_right _ _).trans (splits.length_le reads))
  have read : readAndAllocBsonArray codec allocs (buf.length + 1) buf =
      readDocs codec allocs (buf.length + 1) buf (arraySize 0) 0 (filled [] (arraySize 0)) := by
    rw [readAndAllocBsonArray, if_pos allocated]
    rfl
  rw [read]
  exact readDocs_filled splits [] 0 _ (by decide) (by decide) (by simp) enough

theorem read_ungrown
    (reads : codec.Reads) (splits : Splits codec buf docs tail)
    (allocated : allocs.malloc = true) (ungrown : ¬ Grows allocs docs.length) :
    bsonReadFromBuffer codec allocs buf = .faulted := by
  rcases readAndAllocBsonArray_filled reads splits allocated with
    ⟨grown, _⟩ | ⟨_, read⟩
  · exact absurd grown ungrown
  · rw [bsonReadFromBuffer, read]

theorem read_malformed
    (reads : codec.Reads) (splits : Splits codec buf docs tail)
    (allocated : allocs.malloc = true) (grows : Grows allocs docs.length)
    (malformed : tail ≠ []) :
    bsonReadFromBuffer codec allocs buf = .returned (.readerRead, freed docs none) := by
  rcases readAndAllocBsonArray_filled reads splits allocated with
    ⟨_, capacity, _, read⟩ | ⟨ungrown, _⟩
  · have notEmpty : tail.isEmpty = false := by simpa using malformed
    rw [bsonReadFromBuffer, read]
    simp only [getParsedLen, notEmpty, Bool.false_eq_true, if_false]
    exact fail_filled docs capacity none _
  · exact absurd grows ungrown

theorem read_documents
    (reads : codec.Reads) (splits : Splits codec buf docs [])
    (allocated : allocs.malloc = true) (grows : Grows allocs docs.length) :
    ∃ capacity, docs.length < capacity ∧
      bsonReadFromBuffer codec allocs buf =
        shrinkArray allocs { filled docs capacity with parsedLen := some buf.length } := by
  rcases readAndAllocBsonArray_filled reads splits allocated with
    ⟨_, capacity, room, read⟩ | ⟨ungrown, _⟩
  · refine ⟨capacity, room, ?_⟩
    have offset : ¬ (buf.length : Int) - (([] : Bytes).length : Int) < 0 := by simp
    rw [bsonReadFromBuffer, read]
    simp only [getParsedLen, List.isEmpty_nil, if_true, if_neg offset]
    simp
  · exact absurd grows ungrown

structure ReadBack (docs : List Doc) (parsedLen : Nat) (out : Reading) : Prop where
  entries : out.entries = some (copies docs)
  arrLen : out.arrLen = docs.length
  held : out.arrLen ≤ (out.docArr.getD []).length
  parsedLen : out.parsedLen = some (parsedLen : Int)
  released : out.released = []

theorem read_success
    (reads : codec.Reads) (splits : Splits codec buf docs [])
    (allocated : allocs.malloc = true) (grows : Grows allocs docs.length)
    (shrinks : docs ≠ [] → allocs.shrink = true) :
    ∃ out, bsonReadFromBuffer codec allocs buf = .returned (.success, out) ∧
      ReadBack docs buf.length out := by
  obtain ⟨capacity, room, read⟩ := read_documents reads splits allocated grows
  rw [read, shrinkArray]
  split_ifs with shrunk empty
  · have resized : resize (slots docs capacity) docs.length = slots docs docs.length :=
      resize_slots room.le le_rfl
    refine ⟨_, rfl, ?_, rfl, ?_, rfl, rfl⟩
    · simp only [Reading.entries, filled, Option.map_some, Option.getD_some, resized]
      exact entries_slots docs docs.length
    · simp only [filled, Option.map_some, Option.getD_some, resized]
      exact (length_slots le_rfl).ge
  · obtain rfl : docs = [] := List.length_eq_zero_iff.mp empty
    exact ⟨_, rfl, rfl, rfl, Nat.zero_le _, rfl, rfl⟩
  · have someDocs : docs ≠ [] := fun none => empty (congrArg List.length none)
    exact absurd (shrinks someDocs) shrunk

theorem read_unshrunk
    (reads : codec.Reads) (splits : Splits codec buf docs [])
    (allocated : allocs.malloc = true) (grows : Grows allocs docs.length)
    (someDocs : docs ≠ []) (unshrunk : allocs.shrink = false) :
    bsonReadFromBuffer codec allocs buf =
      .returned (.memAlloc, freed docs (some buf.length)) := by
  obtain ⟨capacity, _, read⟩ := read_documents reads splits allocated grows
  rw [read, shrinkArray, if_neg (Bool.eq_false_iff.mp unshrunk)]
  split_ifs with empty
  · exact absurd (List.length_eq_zero_iff.mp empty) someDocs
  · exact fail_filled docs capacity _ _

end Reading

end Bson

end Tpt
