import Tpt.Bson.Buffer
import Tpt.Bson.Format

/-!
Documents that are written to a buffer and read back.

The array of the reader is doubled when it is full.  Its size is an `int`, and
the double of `2 ^ 30` entries is none.
-/

namespace Tpt

namespace Bson

/-- Every allocation succeeds; of no bytes, `realloc` may return `NULL`. -/
structure Granted (allocs : Allocs) (docs : List Doc) : Prop where
  malloc : allocs.malloc = true
  growth : ∀ k, allocs.growth k = true
  shrink : docs ≠ [] → allocs.shrink = true

/-- The buffer that the documents are written to is read to the end, and gives
the same documents in the same order. -/
def RoundTrips (codec : Codec) (allocs : Allocs) (docs : List Doc) : Prop :=
  ∃ buf out,
    bsonWriteToBuffer codec true docs = ⟨.success, some buf, buf.length⟩ ∧
      bsonReadFromBuffer codec allocs buf = .returned (.success, out) ∧
      out.arrLen = docs.length ∧
      out.entries.map (·.map Copy.doc) = some docs ∧
      out.parsedLen = some (buf.length : Int)

section RoundTrip

variable {codec : Codec} {allocs : Allocs} {docs : List Doc}

theorem roundTrips_of_lt
    (lawful : codec.Lawful docs) (granted : Granted allocs docs) (few : docs.length < 2 ^ 30) :
    RoundTrips codec allocs docs := by
  have all : docs.take (2 ^ 31) = docs := List.take_of_length_le (by omega)
  have grows : Grows allocs docs.length := ⟨few, fun k _ => granted.growth k⟩
  obtain ⟨out, read, back⟩ :=
    read_success lawful.toReads lawful.splits_encode granted.malloc grows granted.shrink
  refine ⟨_, out, ?_, read, back.arrLen, ?_, back.parsedLen⟩
  · rw [bsonWriteToBuffer_eq, all]
  · rw [back.entries, Option.map_some, copies_doc]

theorem not_roundTrips_of_le
    (lawful : codec.Lawful docs) (granted : Granted allocs docs) (many : 2 ^ 30 ≤ docs.length) :
    ¬ RoundTrips codec allocs docs := by
  rintro ⟨buf, out, written, read, _⟩
  rw [bsonWriteToBuffer_eq] at written
  obtain rfl := Option.some.inj (congrArg Written.buf written)
  have ungrown : ¬ Grows allocs (docs.take (2 ^ 31)).length := by
    intro grows
    have few := grows.1
    rw [List.length_take] at few
    omega
  have splits := (lawful.mono (List.take_subset (2 ^ 31) docs)).splits_encode
  rw [read_ungrown lawful.toReads splits granted.malloc ungrown] at read
  cases read

/-- Writing and reading back is the identity on lists of fewer than `2 ^ 30`
documents, and on no longer ones. -/
theorem round_trips_iff (lawful : codec.Lawful docs) (granted : Granted allocs docs) :
    RoundTrips codec allocs docs ↔ docs.length < 2 ^ 30 := by
  constructor
  · intro roundTrips
    by_contra many
    exact not_roundTrips_of_le lawful granted (Nat.le_of_not_lt many) roundTrips
  · exact roundTrips_of_lt lawful granted

end RoundTrip

theorem round_trips_iff_five_documents :
    RoundTrips bsonCodec ⟨true, fun _ => true, true⟩
      [[], [⟨⟨[97], by decide⟩, .int64 7⟩], [], [], [⟨⟨[98], by decide⟩, .int32 1⟩]] :=
  (round_trips_iff (bsonCodec_lawful _) ⟨rfl, fun _ => rfl, fun _ => rfl⟩).mpr (by decide)

/-- So many empty documents that the size of the array is no longer an `int`. -/
theorem array_size_overflows :
    ¬ RoundTrips bsonCodec ⟨true, fun _ => true, true⟩ (List.replicate (2 ^ 30) []) :=
  not_roundTrips_of_le (bsonCodec_lawful _) ⟨rfl, fun _ => rfl, fun _ => rfl⟩
    List.length_replicate.ge

end Bson

end Tpt
