import Tpt.Bson.Format
import Tpt.Bson.Values
import Tpt.Lib.Handles

/-!
Who destroys the documents that `bson_doc_create` and `bson_value_set_array`
make, when appends and writes may fail.

Documents are numbered in the order in which they are made.  The arrays come
with their lengths.
-/

namespace Tpt

namespace Bson

namespace Construction

inductive Code where
  | success
  | nullParams
  | creatNew
  | appendVal
  | writerNew
  | writerBegin
  | iterInit
  | memAlloc
  deriving DecidableEq

/-- The documents that were made, and what is in them. -/
structure Docs where
  handles : Handles
  contents : Nat → Doc

def noDocs : Docs := ⟨.empty, fun _ => []⟩

def bsonDocDestroy (docs : Docs) : Option Nat → Docs
  | none => docs
  | some bdoc => { docs with handles := docs.handles.destroy bdoc }

/-- A loop that appends elements until an append fails: whether none did, and
what the document is then. -/
def appendLoop (append : Nat → Bool) : Nat → List BsonElement → Doc → Bool × Doc
  | _, [], doc => (true, doc)
  | i, element :: elements, doc =>
      if append i then appendLoop append (i + 1) elements (appendValue doc element.key element.val)
      else (false, doc)

/-- A document to create: its elements, and the outcomes of `bson_new` and of
each `bson_append_value`. -/
structure Build where
  earr : Option (List BsonElement)
  bsonNew : Bool
  append : Nat → Bool

/-- `bson_doc_create`, for what is in `*bdoc` before. -/
def bsonDocCreate (docs : Docs) (build : Build) (bdoc : Option Nat) :
    Outcome (Code × Docs × Option Nat) :=
  match build.earr with
  | none => .returned (.nullParams, docs, bdoc)
  | some elements =>
      if build.bsonNew then
        let doc := docs.handles.made
        let (appended, content) := appendLoop build.append 0 elements []
        let docs := ⟨docs.handles.obtain, Function.update docs.contents doc content⟩
        if appended then .returned (.success, docs, some doc)
        else .returned (.appendVal, bsonDocDestroy docs (some doc), some doc)
      else if elements = [] then .returned (.success, docs, none)
      else .faulted

/-- The loop of `test6` that fills the slots from `i` on. -/
def createAll : List Build → Nat → Docs → (Nat → Option Nat) →
    Outcome (Code × Docs × (Nat → Option Nat))
  | [], _, docs, bdoc => .returned (.success, docs, bdoc)
  | build :: builds, i, docs, bdoc =>
      match bsonDocCreate docs build (bdoc i) with
      | .returned (.success, docs, slot) =>
          createAll builds (i + 1) docs (Function.update bdoc i slot)
      | .returned (code, docs, slot) => .returned (code, docs, Function.update bdoc i slot)
      | .faulted => .faulted
      | .running => .running

/-- The cleanup of `test6`: `bson_doc_destroy` on each of these slots. -/
def destroyAll (bdoc : Nat → Option Nat) : List Nat → Docs → Docs
  | [], docs => docs
  | i :: slots, docs => destroyAll bdoc slots (bsonDocDestroy docs (bdoc i))

/-- After an error no slot refers to a destroyed document, and the cleanup
destroys none a second time. -/
def Clean (slots : Nat) : Outcome (Code × Docs × (Nat → Option Nat)) → Prop
  | .returned (code, docs, bdoc) =>
      code ≠ .success →
        (∀ i < slots, ∀ doc, bdoc i = some doc → docs.handles.destroys doc = 0) ∧
          ∀ doc, (destroyAll bdoc (List.range slots) docs).handles.destroys doc ≤ 1
  | _ => False

/-- The outcomes of the calls of `bson_value_set_array`, and of those that
`bson_write_to_buffer` makes for it. -/
structure SetAnswers where
  bsonNew : Bool
  append : Nat → Bool
  writerNew : Bool
  writerBegin : Bool
  iterInit : Bool
  copy : Nat → Bool
  realloc : Bool

def bsonWriteToBuffer (codec : Codec) (answers : SetAnswers) (doc : Doc) : Code × Option Bytes :=
  if answers.writerNew then
    if answers.writerBegin then
      if answers.iterInit then
        let (copied, content) := appendLoop answers.copy 0 (doc.map bsonIterElement) []
        if copied then
          if answers.realloc then (.success, some (codec.encode content)) else (.memAlloc, none)
        else (.appendVal, none)
      else (.iterInit, none)
    else (.writerBegin, none)
  else (.writerNew, none)

def bsonValueSetArray (codec : Codec) (docs : Docs) (val : BsonValue)
    (arrVals : Option (List BsonValue)) (answers : SetAnswers) : Code × Docs × BsonValue :=
  match arrVals with
  | none => (.nullParams, docs, val)
  | some vals =>
      if answers.bsonNew then
        let doc := docs.handles.made
        let (appended, content) := appendLoop answers.append 0 (numbered vals) []
        let docs := ⟨docs.handles.obtain, Function.update docs.contents doc content⟩
        if appended then
          match bsonWriteToBuffer codec answers content with
          | (.success, some buf) => (.success, bsonDocDestroy docs (some doc), .array (.of buf))
          | (code, _) => (code, bsonDocDestroy docs (some doc), val)
        else (.appendVal, bsonDocDestroy docs (some doc), val)
      else (.creatNew, docs, val)

/-- The document that a call made is destroyed once, and an error leaves the
value as it was. -/
structure SetsArray (codec : Codec) (docs : Docs) (val : BsonValue)
    (arrVals : Option (List BsonValue)) (answers : SetAnswers) : Prop where
  destroyed : (bsonValueSetArray codec docs val arrVals answers).2.1.handles =
    if answers.bsonNew = true ∧ arrVals ≠ none then
      docs.handles.obtain.destroy docs.handles.made
    else docs.handles
  unchanged : (bsonValueSetArray codec docs val arrVals answers).1 ≠ .success →
    (bsonValueSetArray codec docs val arrVals answers).2.2 = val

/-- A failure leaves no destroyed document to its caller. -/
structure FailsClean (codec : Codec) (builds : List Build) : Prop where
  creates : Clean builds.length (createAll builds 0 noDocs fun _ => none)
  sets : ∀ docs val arrVals answers, SetsArray codec docs val arrVals answers

/-- Up to the first array that is `NULL`, each document has no elements, or is
made and appended to without a failure. -/
def Fine : List Build → Prop
  | [] => True
  | build :: builds =>
      ∀ elements, build.earr = some elements →
        (elements = [] ∨
          (build.bsonNew = true ∧ ∀ i < elements.length, build.append i = true)) ∧ Fine builds

section Append

variable {append : Nat → Bool} {elements : List BsonElement}

theorem appendLoop_all (i : Nat) (doc : Doc) :
    (appendLoop append i elements doc).1 = true ↔
      ∀ j < elements.length, append (i + j) = true := by
  induction elements generalizing i doc with
  | nil => exact iff_of_true rfl fun j below => absurd below (Nat.not_lt_zero j)
  | cons element elements inductionHypothesis =>
      have shifted : ∀ j, i + 1 + j = i + (j + 1) := by omega
      rw [appendLoop, List.length_cons, Nat.forall_lt_succ_left]
      split_ifs with first
      · have here : append (i + 0) = true := first
        rw [inductionHypothesis, and_iff_right here]
        simp only [shifted]
      · exact iff_of_false nofun fun all => first all.1

theorem appendLoop_content (i : Nat) (doc : Doc)
    (all : ∀ j < elements.length, append (i + j) = true) :
    appendLoop append i elements doc = (true, doc ++ contents elements) := by
  induction elements generalizing i doc with
  | nil => rw [appendLoop, contents, List.map_nil, List.append_nil]
  | cons element elements inductionHypothesis =>
      rw [List.length_cons, Nat.forall_lt_succ_left, Nat.add_zero] at all
      have later : ∀ j < elements.length, append (i + 1 + j) = true := by
        intro j below
        rw [Nat.add_right_comm, Nat.add_assoc]
        exact all.2 j below
      rw [appendLoop, if_pos all.1, inductionHypothesis _ _ later, appendValue, List.append_assoc]
      rfl

theorem appendLoop_copy {doc : Doc} (all : ∀ j < doc.length, append j = true) :
    appendLoop append 0 (doc.map bsonIterElement) [] = (true, doc) := by
  have appends : ∀ j < (doc.map bsonIterElement).length, append (0 + j) = true := by
    intro j below
    rw [List.length_map] at below
    rw [Nat.zero_add]
    exact all j below
  rw [appendLoop_content _ _ appends, List.nil_append, contents_bsonIterElement]

end Append

section Create

variable {docs : Docs} {build : Build} {elements : List BsonElement} {slot : Option Nat}

theorem bsonDocCreate_success
    (earr : build.earr = some elements) (created : build.bsonNew = true)
    (all : ∀ i < elements.length, build.append i = true) :
    bsonDocCreate docs build slot =
      .returned (.success,
        ⟨docs.handles.obtain,
          Function.update docs.contents docs.handles.made (contents elements)⟩,
        some docs.handles.made) := by
  have appended := appendLoop_content 0 [] fun i below => (Nat.zero_add i).symm ▸ all i below
  rw [List.nil_append] at appended
  simp only [bsonDocCreate, earr, created, appended, if_true]

theorem bsonDocCreate_fine
    (earr : build.earr = some elements)
    (fine : elements = [] ∨
      (build.bsonNew = true ∧ ∀ i < elements.length, build.append i = true)) :
    (∃ contents, bsonDocCreate docs build slot =
        .returned (.success, ⟨docs.handles.obtain, contents⟩, some docs.handles.made)) ∨
      bsonDocCreate docs build slot = .returned (.success, docs, none) := by
  rcases fine with rfl | ⟨created, all⟩
  · cases created : build.bsonNew with
    | true =>
        have none : ∀ i < ([] : List BsonElement).length, build.append i = true :=
          fun i below => absurd below (Nat.not_lt_zero i)
        exact .inl ⟨_, bsonDocCreate_success earr created none⟩
    | false => exact .inr (by simp [bsonDocCreate, earr, created])
  · exact .inl ⟨_, bsonDocCreate_success earr created all⟩

theorem bsonDocCreate_fails
    (earr : build.earr = some elements) (created : build.bsonNew = true)
    (fails : ¬ ∀ i < elements.length, build.append i = true) :
    ∃ after, bsonDocCreate docs build slot =
        .returned (.appendVal, after, some docs.handles.made) ∧
      after.handles.destroys docs.handles.made ≠ 0 := by
  have appended : (appendLoop build.append 0 elements []).1 = false := by
    rw [← Bool.not_eq_true, appendLoop_all]
    simpa only [Nat.zero_add] using fails
  obtain ⟨content, stops⟩ : ∃ content, appendLoop build.append 0 elements [] = (false, content) :=
    ⟨_, Prod.ext appended rfl⟩
  refine ⟨bsonDocDestroy
    ⟨docs.handles.obtain, Function.update docs.contents docs.handles.made content⟩
    (some docs.handles.made), ?_, ?_⟩
  · simp only [bsonDocCreate, earr, created, stops, if_true]
    rfl
  · exact (Function.update_self ..).trans_ne (Nat.succ_ne_zero _)

theorem bsonDocCreate_faults
    (earr : build.earr = some elements) (someElements : elements ≠ [])
    (failed : build.bsonNew = false) : bsonDocCreate docs build slot = .faulted := by
  simp [bsonDocCreate, earr, failed, someElements]

end Create

section CreateAll

variable {builds : List Build} {i : Nat} {docs : Docs} {bdoc : Nat → Option Nat}

theorem createAll_fine
    (fine : Fine builds) (kept : Handles.Kept docs.handles bdoc)
    (empty : ∀ j, i ≤ j → bdoc j = none) :
    ∃ code after slots, createAll builds i docs bdoc = .returned (code, after, slots) ∧
      Handles.Kept after.handles slots := by
  induction builds generalizing i docs bdoc with
  | nil => exact ⟨_, _, _, rfl, kept⟩
  | cons build builds inductionHypothesis =>
      have later : ∀ slot j, i + 1 ≤ j → Function.update bdoc i slot j = none := by
        intro slot j above
        rw [Function.update_of_ne (Nat.ne_of_gt above)]
        exact empty j (Nat.le_of_succ_le above)
      have nothing := empty i (le_refl i)
      rw [createAll]
      cases earr : build.earr with
      | none =>
          have create : bsonDocCreate docs build (bdoc i) =
              .returned (.nullParams, docs, bdoc i) := by rw [bsonDocCreate, earr]
          rw [create]
          exact ⟨_, _, _, rfl, (Function.update_eq_self i bdoc).symm ▸ kept⟩
      | some elements =>
          obtain ⟨fineHere, fineLater⟩ := fine elements earr
          rcases @bsonDocCreate_fine docs build elements (bdoc i) earr fineHere with
            ⟨contents, create⟩ | create
          · rw [create]
            exact inductionHypothesis fineLater (kept.obtain nothing) (later _)
          · rw [create]
            have same : Function.update bdoc i none = bdoc := by
              rw [← nothing, Function.update_eq_self]
            exact inductionHypothesis fineLater (same.symm ▸ kept) (later _)

/-- The first document that is not fine ends the program, or leaves a slot that
refers to it. -/
theorem createAll_not_fine (notFine : ¬ Fine builds) :
    createAll builds i docs bdoc = .faulted ∨
      ∃ code after slots j doc, createAll builds i docs bdoc = .returned (code, after, slots) ∧
        code ≠ .success ∧ j < i + builds.length ∧ slots j = some doc ∧
        after.handles.destroys doc ≠ 0 := by
  induction builds generalizing i docs bdoc with
  | nil => exact absurd trivial notFine
  | cons build builds inductionHypothesis =>
      rw [createAll]
      cases earr : build.earr with
      | none => exact absurd (fun elements found => nomatch earr.symm.trans found) notFine
      | some elements =>
          by_cases fineHere : elements = [] ∨
              (build.bsonNew = true ∧ ∀ i < elements.length, build.append i = true)
          · have notLater : ¬ Fine builds := by
              intro fineLater
              refine notFine fun others found => ?_
              obtain rfl := Option.some.inj (earr.symm.trans found)
              exact ⟨fineHere, fineLater⟩
            obtain ⟨after, slot, create⟩ : ∃ after slot,
                bsonDocCreate docs build (bdoc i) = .returned (.success, after, slot) := by
              rcases @bsonDocCreate_fine docs build elements (bdoc i) earr fineHere with
                ⟨_, create⟩ | create
              · exact ⟨_, _, create⟩
              · exact ⟨_, _, create⟩
            have length : i + (build :: builds).length = i + 1 + builds.length := by
              rw [List.length_cons, Nat.add_right_comm, Nat.add_assoc]
            rw [create, length]
            exact inductionHypothesis notLater
          · obtain ⟨someElements, fails⟩ := not_or.mp fineHere
            cases created : build.bsonNew with
            | false =>
                rw [bsonDocCreate_faults earr someElements created]
                exact .inl rfl
            | true =>
                obtain ⟨after, create, destroyed⟩ :=
                  @bsonDocCreate_fails docs build elements (bdoc i) earr created fun all =>
                    fails ⟨created, all⟩
                rw [create]
                exact .inr ⟨_, _, _, i, docs.handles.made, rfl, nofun,
                  Nat.lt_add_of_pos_right (Nat.succ_pos _), Function.update_self .., destroyed⟩

end CreateAll

theorem destroyAll_le_one
    {docs : Docs} {bdoc holds : Nat → Option Nat} {slots : List Nat}
    (kept : Handles.Kept docs.handles holds) (nodup : slots.Nodup)
    (same : ∀ i ∈ slots, holds i = bdoc i) (doc : Nat) :
    (destroyAll bdoc slots docs).handles.destroys doc ≤ 1 := by
  induction slots generalizing docs holds with
  | nil => exact kept.destroys_le_one doc
  | cons i slots inductionHypothesis =>
      obtain ⟨fresh, nodupRest⟩ := List.nodup_cons.mp nodup
      obtain ⟨sameHere, sameLater⟩ := List.forall_mem_cons.mp same
      rw [destroyAll, ← sameHere]
      cases held : holds i with
      | none => exact inductionHypothesis kept nodupRest sameLater
      | some bdoc' =>
          refine inductionHypothesis (kept.destroy held) nodupRest fun j member => ?_
          have different : j ≠ i := fun equal => fresh (equal ▸ member)
          rw [Function.update_of_ne different, sameLater j member]

theorem setsArray (codec : Codec) (docs : Docs) (val : BsonValue)
    (arrVals : Option (List BsonValue)) (answers : SetAnswers) :
    SetsArray codec docs val arrVals answers := by
  cases arrVals with
  | none => exact ⟨(if_neg fun made => made.2 rfl).symm, fun _ => rfl⟩
  | some vals =>
      cases created : answers.bsonNew with
      | false =>
          have none : bsonValueSetArray codec docs val (some vals) answers =
              (.creatNew, docs, val) := by simp [bsonValueSetArray, created]
          exact ⟨by simp [none, created], fun _ => by rw [none]⟩
      | true =>
          have exactly : ∀ out, bsonValueSetArray codec docs val (some vals) answers = out →
              out.2.1.handles = docs.handles.obtain.destroy docs.handles.made ∧
                (out.1 ≠ .success → out.2.2 = val) := by
            rintro out rfl
            simp only [bsonValueSetArray, created, if_true]
            split_ifs with appended
            · split
              · exact ⟨rfl, fun failed => absurd rfl failed⟩
              · exact ⟨rfl, fun _ => rfl⟩
            · exact ⟨rfl, fun _ => rfl⟩
          obtain ⟨destroyed, unchanged⟩ := exactly _ rfl
          exact ⟨by rw [destroyed, if_pos ⟨created, nofun⟩], unchanged⟩

structure Succeeds (answers : SetAnswers) (count : Nat) : Prop where
  bsonNew : answers.bsonNew = true
  append : ∀ i < count, answers.append i = true
  writerNew : answers.writerNew = true
  writerBegin : answers.writerBegin = true
  iterInit : answers.iterInit = true
  copy : ∀ i < count, answers.copy i = true
  realloc : answers.realloc = true

/-- Where nothing fails, the array is the one of the round trips. -/
theorem bsonValueSetArray_agrees
    (codec : Codec) (docs : Docs) (val : BsonValue) (vals : List BsonValue) {answers : SetAnswers}
    {allocs : ValueAllocs} (succeeds : Succeeds answers vals.length)
    (created : allocs.bsonNew = true) (resized : allocs.realloc = true) :
    ∃ after array, bsonValueSetArray codec docs val (some vals) answers =
        (.success, after, array) ∧
      Bson.bsonValueSetArray codec allocs (some vals) vals.length =
        .returned (.success, some array) := by
  have length := length_numbered vals
  have appended := @appendLoop_content answers.append (numbered vals) 0 [] fun i below =>
    (Nat.zero_add i).symm ▸ succeeds.append i (length ▸ below)
  have copied := appendLoop_copy fun i below =>
    succeeds.copy i (((length_contents _).trans length) ▸ below)
  rw [List.nil_append] at appended
  have written : bsonWriteToBuffer codec answers (contents (numbered vals)) =
      (.success, some (codec.encode (contents (numbered vals)))) := by
    simp only [bsonWriteToBuffer, succeeds.writerNew, succeeds.writerBegin, succeeds.iterInit,
      succeeds.realloc, copied, if_true]
  have set : bsonValueSetArray codec docs val (some vals) answers =
      (.success,
        bsonDocDestroy
          ⟨docs.handles.obtain,
            Function.update docs.contents docs.handles.made (contents (numbered vals))⟩
          (some docs.handles.made),
        .array (.of (codec.encode (contents (numbered vals))))) := by
    simp only [bsonValueSetArray, succeeds.bsonNew, appended, written, if_true]
  exact ⟨_, _, set, bsonValueSetArray_eq allocs codec created resized vals⟩

theorem bsonDocCreate_agrees
    {docs : Docs} {build : Build} {elements : List BsonElement} {slot : Option Nat}
    {allocs : ValueAllocs} (earr : build.earr = some elements) (made : build.bsonNew = true)
    (all : ∀ i < elements.length, build.append i = true) (created : allocs.bsonNew = true) :
    ∃ after doc, bsonDocCreate docs build slot = .returned (.success, after, some doc) ∧
      Bson.bsonDocCreate allocs (some elements) elements.length =
        .returned (.success, some (after.contents doc)) := by
  refine ⟨_, _, bsonDocCreate_success earr made all, ?_⟩
  have content : Function.update docs.contents docs.handles.made (contents elements)
      docs.handles.made = contents elements := Function.update_self ..
  exact (bsonDocCreate_eq allocs created elements).trans
    (congrArg (fun doc => Outcome.returned (BsonErr.success, some doc)) content.symm)

/-- A failure is clean in every call if and only if no document that is to have
elements fails. -/
theorem failsClean_iff (codec : Codec) (builds : List Build) :
    FailsClean codec builds ↔ Fine builds := by
  constructor
  · intro clean
    by_contra notFine
    have creates := clean.creates
    rcases createAll_not_fine notFine with faulted |
      ⟨code, after, slots, j, doc, returned, failed, below, held, destroyed⟩
    · rw [faulted] at creates
      exact creates
    · rw [returned] at creates
      rw [Nat.zero_add] at below
      exact destroyed ((creates failed).1 j below doc held)
  · intro fine
    refine ⟨?_, setsArray codec⟩
    obtain ⟨code, after, slots, returned, kept⟩ :=
      @createAll_fine builds 0 noDocs _ fine .start fun _ _ => rfl
    rw [returned]
    refine fun _ => ⟨fun i _ doc held => (kept.live i doc held).2, fun doc => ?_⟩
    exact destroyAll_le_one kept List.nodup_range (fun _ _ => rfl) doc

def failingAppend : List Build :=
  [⟨some [⟨⟨[97], by decide⟩, .int32 1⟩], true, fun _ => false⟩]

theorem failed_append_destroyed_twice :
    ∃ docs bdoc, createAll failingAppend 0 noDocs (fun _ => none) =
        .returned (.appendVal, docs, bdoc) ∧ bdoc 0 = some 0 ∧
      (destroyAll bdoc (List.range failingAppend.length) docs).handles.destroys 0 = 2 ∧
      ¬ FailsClean bsonCodec failingAppend := by
  refine ⟨_, _, rfl, by decide, by decide, fun clean => ?_⟩
  have once := (clean.creates nofun).2 0
  exact absurd once (by decide)

end Construction

end Bson

end Tpt
