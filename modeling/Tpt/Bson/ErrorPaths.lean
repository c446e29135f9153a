import Tpt.Bson.Buffer
import Tpt.Bson.Format

/-!
What `bson_read_from_buffer` leaves when it fails.

An enlarging of the array that fails overwrites the array with `NULL` before
the cleanup reads it.  The other failing exits give the documents to `free` and
leave `*arr_len` as it is.
-/

namespace Tpt

namespace Bson

/-- What a failed call should leave: no array and no document, each released
once, and a document with `bson_destroy`. -/
structure Cleaned (allocs : Allocs) (out : Reading) : Prop where
  docArr : out.docArr = none
  arrLen : out.arrLen = 0
  arrayFreed : out.arrayFrees = allocs.malloc.toNat
  destroyed : ∀ number < out.copied,
    out.released.filter (·.1 = number) = [(number, .bsonDestroy)]

/-- A call that fails cleans up; one that succeeds returns the documents. -/
def ReadMeets (allocs : Allocs) (docs : List Doc) : Outcome (BsonErr × Reading) → Prop
  | .returned (.success, out) =>
      (∃ list, out.entries = some list ∧ list.map Copy.doc = docs) ∧
        out.arrLen ≤ (out.docArr.getD []).length ∧ out.released = []
  | .returned (_, out) => Cleaned allocs out
  | .faulted => False
  | .running => False

section Meets

variable {codec : Codec} {allocs : Allocs} {buf tail : Bytes} {docs : List Doc}

theorem cleaned_freed_iff (allocated : allocs.malloc = true) (parsedLen : Option Int) :
    Cleaned allocs (freed docs parsedLen) ↔ docs = [] := by
  constructor
  · intro cleaned
    exact List.length_eq_zero_iff.mp cleaned.arrLen
  · rintro rfl
    refine ⟨rfl, rfl, ?_, fun _ below => absurd below (Nat.not_lt_zero _)⟩
    rw [allocated]
    rfl

theorem ReadBack.meets {out : Reading} {parsedLen : Nat} (back : ReadBack docs parsedLen out) :
    ReadMeets allocs docs (.returned (.success, out)) :=
  ⟨⟨copies docs, back.entries, copies_doc docs⟩, back.held, back.released⟩

/-- The call keeps its promises where the array is not allocated at all, or
where its enlargings succeed and either nothing was read or all of the buffer
was and the last resizing succeeds. -/
theorem read_meets_iff
    (reads : codec.Reads) (splits : Splits codec buf docs tail) :
    ReadMeets allocs docs (bsonReadFromBuffer codec allocs buf) ↔
      allocs.malloc = false ∨
        (Grows allocs docs.length ∧ (docs = [] ∨ (tail = [] ∧ allocs.shrink = true))) := by
  cases allocated : allocs.malloc with
  | false =>
      rw [read_unallocated allocated]
      refine iff_of_true ⟨rfl, rfl, ?_, fun _ below => absurd below (Nat.not_lt_zero _)⟩ (.inl rfl)
      rw [allocated]
      rfl
  | true =>
      rw [or_iff_right Bool.noConfusion]
      by_cases grows : Grows allocs docs.length
      · rw [and_iff_right grows]
        by_cases complete : tail = []
        · subst complete
          rw [and_iff_right rfl]
          by_cases shrinks : docs ≠ [] → allocs.shrink = true
          · obtain ⟨out, read, back⟩ := read_success reads splits allocated grows shrinks
            rw [read]
            exact iff_of_true back.meets (or_iff_not_imp_left.mpr shrinks)
          · obtain ⟨someDocs, unshrunk⟩ := Classical.not_imp.mp shrinks
            rw [read_unshrunk reads splits allocated grows someDocs
              (Bool.eq_false_iff.mpr unshrunk), or_iff_left unshrunk]
            exact cleaned_freed_iff allocated _
        · rw [read_malformed reads splits allocated grows complete,
            or_iff_left fun whole => complete whole.1]
          exact cleaned_freed_iff allocated _
      · rw [read_ungrown reads splits allocated grows]
        exact iff_of_false id fun meets => grows meets.1

end Meets

/-- All allocations succeed on one empty document. -/
theorem read_meets_iff_empty_document :
    ReadMeets ⟨true, fun _ => true, true⟩ [[]]
      (bsonReadFromBuffer bsonCodec ⟨true, fun _ => true, true⟩ [5, 0, 0, 0, 0]) :=
  (read_meets_iff bsonCodec_reads (bsonCodec_lawful [[]]).splits_encode).mpr
    (.inr ⟨⟨by decide, fun _ _ => rfl⟩, .inr ⟨rfl, rfl⟩⟩)

/-- An empty document and one more byte; and four empty documents where the
array cannot be enlarged. -/
theorem read_leaves_documents :
    ¬ ReadMeets ⟨true, fun _ => true, true⟩ [[]]
        (bsonReadFromBuffer bsonCodec ⟨true, fun _ => true, true⟩ [5, 0, 0, 0, 0, 0]) ∧
      ¬ ReadMeets ⟨true, fun _ => false, true⟩ [[], [], [], []]
        (bsonReadFromBuffer bsonCodec ⟨true, fun _ => false, true⟩
          ([[], [], [], []].flatMap bsonCodec.encode)) := by
  have malformed : bsonReadFromBuffer bsonCodec ⟨true, fun _ => true, true⟩ [5, 0, 0, 0, 0, 0] =
      .returned (.readerRead, freed [[]] none) := by decide
  have ungrown : bsonReadFromBuffer bsonCodec ⟨true, fun _ => false, true⟩
      ([[], [], [], []].flatMap bsonCodec.encode) = .faulted := by decide
  rw [malformed, ungrown]
  exact ⟨fun meets => absurd meets.arrLen (by decide), id⟩

end Bson

end Tpt
