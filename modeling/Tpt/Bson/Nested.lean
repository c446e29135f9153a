import Tpt.Bson.Values
import Tpt.Bson.Format

/-!
Trees of values.

A tree is built from its leaves up, each inner node with the calls that make a
value of its children, and taken apart from its root down.  A string and an
encoding whose length is no `uint32_t` lose what is beyond it.
-/

namespace Tpt

namespace Bson

/-- A finite tree of values.  The counts that the calls take are `int`s, which
bounds the widths. -/
inductive Tree where
  | int32 (value : UInt32)
  | int64 (value : UInt64)
  | double (bits : UInt64)
  | str (value : CString)
  | array (width : Fin (2 ^ 31)) (children : Fin width → Tree)
  | document (width : Fin (2 ^ 31)) (keys : Fin width → CString) (children : Fin width → Tree)

namespace Tree

def height : Tree → Nat
  | .array _ children => (Finset.univ.sup fun i => (children i).height) + 1
  | .document _ _ children => (Finset.univ.sup fun i => (children i).height) + 1
  | _ => 1

def ofValues (trees : Σ width, Fin width → Tree) : Option Tree :=
  if counted : trees.1 < 2 ^ 31 then some (.array ⟨trees.1, counted⟩ trees.2) else none

def ofElements (trees : Σ width, Fin width → CString × Tree) : Option Tree :=
  if counted : trees.1 < 2 ^ 31 then
    some (.document ⟨trees.1, counted⟩ (fun i => (trees.2 i).1) (fun i => (trees.2 i).2))
  else none

section Lists

variable (width : Fin (2 ^ 31)) (keys : Fin width → CString) (children : Fin width → Tree)

theorem ofValues_eq_some {trees : List Tree} :
    ofValues (List.equivSigmaTuple trees) = some (.array width children) ↔
      trees = List.ofFn children := by
  have list : List.ofFn children = List.equivSigmaTuple.symm ⟨width.val, children⟩ := rfl
  rw [list, Equiv.eq_symm_apply, ofValues]
  constructor
  · intro made
    obtain ⟨counted, same⟩ := Option.dite_none_right_eq_some.mp made
    cases same
    rfl
  · intro same
    rw [same, dif_pos width.isLt]

theorem ofElements_eq_some {trees : List (CString × Tree)} :
    ofElements (List.equivSigmaTuple trees) = some (.document width keys children) ↔
      trees = List.ofFn fun i => (keys i, children i) := by
  have list : (List.ofFn fun i => (keys i, children i)) =
      List.equivSigmaTuple.symm ⟨width.val, fun i => (keys i, children i)⟩ := rfl
  rw [list, Equiv.eq_symm_apply, ofElements]
  constructor
  · intro made
    obtain ⟨counted, same⟩ := Option.dite_none_right_eq_some.mp made
    cases same
    rfl
  · intro same
    rw [same, dif_pos width.isLt]

end Lists

end Tree

def Outcome.value {α : Type} : Outcome (BsonErr × Option α) → Option α
  | .returned (.success, value) => value
  | _ => none

def Outcome.list {α : Type} : Outcome (Got α) → Option (List α)
  | .returned got => got.list
  | _ => none

/-- Build the value of a tree with the setters. -/
def build (codec : Codec) (allocs : ValueAllocs) : Tree → Option BsonValue
  | .int32 value => some (bsonValueSetInt32 value)
  | .int64 value => some (bsonValueSetInt64 value)
  | .double bits => some (bsonValueSetDouble bits)
  | .str value => some (bsonValueSetStr value)
  | .array width children => do
      let vals ← (List.ofFn fun i => build codec allocs (children i)).mapM id
      (bsonValueSetArray codec allocs (some vals) width.val).value
  | .document width keys children => do
      let elements ← (List.ofFn fun i =>
        (build codec allocs (children i)).map (BsonElement.mk (keys i))).mapM id
      let doc ← (bsonDocCreate allocs (some elements) width.val).value
      (bsonValueSetDoc codec allocs doc).value

/-- Take a value apart with the getters, down to a depth; of a string it takes
as many bytes as its length says. -/
def takeApart (codec : Codec) (allocs : ValueAllocs) : Nat → BsonValue → Option Tree
  | 0, _ => none
  | _ + 1, .int32 value => some (.int32 value.toUInt32)
  | _ + 1, .int64 value => some (.int64 value.toUInt64)
  | _ + 1, .double bits => some (.double bits)
  | _ + 1, .utf8 str noNul => some (.str (str.str noNul))
  | depth + 1, .array doc => do
      let vals ← (bsonValueGetArray codec allocs (.array doc)).list
      let trees ← vals.mapM (takeApart codec allocs depth)
      Tree.ofValues (List.equivSigmaTuple trees)
  | depth + 1, .document doc => do
      let doc ← (bsonValueGetDoc codec (.document doc)).value
      let elements ← (bsonDocGetElements allocs doc).list
      let trees ← elements.mapM fun element =>
        (takeApart codec allocs depth element.val).map (element.key, ·)
      Tree.ofElements (List.equivSigmaTuple trees)

def granted : ValueAllocs := ⟨true, true, true, true⟩

/-- The tree can be built, and its value is taken apart to the same tree. -/
def TreeRoundTrips (codec : Codec) (tree : Tree) : Prop :=
  ∃ value, build codec granted tree = some value ∧
    ∀ depth, tree.height ≤ depth → takeApart codec granted depth value = some tree

def nodeDoc {width : Nat} (keys : Fin width → CString) (values : Fin width → Value) : Doc :=
  List.ofFn fun i => ⟨keys i, values i⟩

/-- The value that a tree stands for: the length of every string in it, and of
the encoding of every inner node, is a `uint32_t`. -/
inductive Represents (codec : Codec) : Tree → Value → Prop where
  | int32 (value : UInt32) : Represents codec (.int32 value) (.int32 value.toInt32)
  | int64 (value : UInt64) : Represents codec (.int64 value) (.int64 value.toInt64)
  | double (bits : UInt64) : Represents codec (.double bits) (.double bits)
  | str (value : CString) (fits : value.bytes.length < 2 ^ 32) :
      Represents codec (.str value) (.utf8 value fits)
  | array {width : Fin (2 ^ 31)} {children : Fin width → Tree} {values : Fin width → Value}
      (each : ∀ i, Represents codec (children i) (values i)) (data : Short)
      (encoding : data.bytes =
        codec.encode (nodeDoc (fun i => bsonUint32ToString i) values)) :
      Represents codec (.array width children) (.array data)
  | document {width : Fin (2 ^ 31)} {keys : Fin width → CString} {children : Fin width → Tree}
      {values : Fin width → Value}
      (each : ∀ i, Represents codec (children i) (values i)) (data : Short)
      (encoding : data.bytes = codec.encode (nodeDoc keys values)) :
      Represents codec (.document width keys children) (.document data)

/-- Every string and every encoding in the tree is shorter than `2 ^ 32` bytes. -/
def Representable (codec : Codec) (tree : Tree) : Prop := ∃ value, Represents codec tree value

theorem mapM_ofFn
    {α β : Type} {width : Nat} {step : α → Option β} {source : Fin width → α}
    {target : Fin width → β} :
    (List.ofFn source).mapM step = some (List.ofFn target) ↔
      ∀ i, step (source i) = some (target i) := by
  induction width with
  | zero => exact iff_of_true rfl fun i => i.elim0
  | succ width inductionHypothesis =>
      rw [List.ofFn_succ, List.ofFn_succ, List.mapM_cons, Fin.forall_fin_succ,
        ← inductionHypothesis]
      cases step (source 0) with
      | none => exact iff_of_false nofun fun both => nomatch both.1
      | some first =>
          cases (List.ofFn fun i => source i.succ).mapM step with
          | none => exact iff_of_false nofun fun both => nomatch both.2
          | some rest => simp

section Nodes

variable {width : Nat} (keys : Fin width → CString) (values : Fin width → BsonValue)

theorem length_nodeDoc (values : Fin width → Value) : (nodeDoc keys values).length = width :=
  List.length_ofFn

theorem nodeDoc_content (values : Fin width → Value) :
    nodeDoc keys values = nodeDoc keys fun i => (bsonIterValue (values i)).content := by
  simp only [content_bsonIterValue]

theorem contents_ofFn :
    contents (List.ofFn fun i => ⟨keys i, values i⟩) =
      nodeDoc keys fun i => (values i).content := by
  rw [contents, List.map_ofFn]
  rfl

theorem contents_numbered :
    contents (numbered (List.ofFn values)) =
      nodeDoc (fun i => bsonUint32ToString i) fun i => (values i).content := by
  rw [← contents_ofFn]
  refine congrArg contents (List.ext_getElem (by simp) fun i _ _ => ?_)
  simp only [numbered, List.getElem_mapIdx, List.getElem_ofFn]

theorem nodeDoc_vals :
    (nodeDoc keys fun i => (values i).content).map (fun element => bsonIterValue element.val) =
      List.ofFn fun i => bsonIterValue (values i).content := by
  rw [nodeDoc, List.map_ofFn]
  rfl

theorem nodeDoc_elements :
    (nodeDoc keys fun i => (values i).content).map bsonIterElement =
      List.ofFn fun i => ⟨keys i, bsonIterValue (values i).content⟩ := by
  rw [nodeDoc, List.map_ofFn]
  rfl

end Nodes

/-- The getters do not read beyond the length of a value. -/
theorem takeApart_content (codec : Codec) (depth : Nat) (value : BsonValue) :
    takeApart codec granted depth (bsonIterValue value.content) =
      takeApart codec granted depth value := by
  cases depth with
  | zero => rfl
  | succ depth =>
      cases value with
      | int32 | int64 | double => rfl
      | utf8 str noNul =>
          simp only [BsonValue.content, bsonIterValue, takeApart, Span.str,
            Span.read_of str.length_read_lt]
      | array doc | document doc =>
          simp only [BsonValue.content, bsonIterValue, takeApart, bsonValueGetArray,
            bsonValueGetDoc, BsonValue.vDoc, bsonNewFromData, Span.read_of doc.length_read_lt]

section Build

variable {codec : Codec} {width : Fin (2 ^ 31)} {children : Fin width → Tree}
  {values : Fin width → BsonValue}

theorem build_array (built : ∀ i, build codec granted (children i) = some (values i)) :
    build codec granted (.array width children) =
      some (.array (.of (codec.encode
        (nodeDoc (fun i => bsonUint32ToString i) fun i => (values i).content)))) := by
  have vals : (List.ofFn fun i => build codec granted (children i)).mapM id =
      some (List.ofFn values) := mapM_ofFn.mpr built
  have set := bsonValueSetArray_eq granted codec rfl rfl (List.ofFn values)
  rw [List.length_ofFn, contents_numbered] at set
  rw [build, vals, Option.bind_eq_bind, Option.bind_some, set]
  rfl

theorem build_document
    (keys : Fin width → CString)
    (built : ∀ i, build codec granted (children i) = some (values i)) :
    build codec granted (.document width keys children) =
      some (.document (.of (codec.encode (nodeDoc keys fun i => (values i).content)))) := by
  have elements : (List.ofFn fun i =>
      (build codec granted (children i)).map (BsonElement.mk (keys i))).mapM id =
        some (List.ofFn fun i => ⟨keys i, values i⟩) :=
    mapM_ofFn.mpr fun i => congrArg (Option.map (BsonElement.mk (keys i))) (built i)
  have create := bsonDocCreate_eq granted rfl (List.ofFn fun i => ⟨keys i, values i⟩)
  rw [List.length_ofFn, contents_ofFn] at create
  simp only [build, elements, Option.bind_eq_bind, Option.bind_some, create, Outcome.value,
    bsonValueSetDoc_eq granted codec rfl]

theorem build_total (codec : Codec) (tree : Tree) :
    ∃ value, build codec granted tree = some value := by
  induction tree with
  | int32 | int64 | double | str => exact ⟨_, rfl⟩
  | array width children inductionHypothesis =>
      choose values built using inductionHypothesis
      exact ⟨_, build_array built⟩
  | document width keys children inductionHypothesis =>
      choose values built using inductionHypothesis
      exact ⟨_, build_document keys built⟩

end Build

section TakeApart

variable {codec : Codec} {width : Fin (2 ^ 31)} {children : Fin width → Tree}
  {values : Fin width → BsonValue} {depth : Nat}

/-- An array is taken apart if its encoding is not cut and its entries are taken
apart. -/
theorem takeApart_array_iff
    (delimits : codec.Delimits) {doc : Doc}
    (node : doc = nodeDoc (fun i => bsonUint32ToString i) fun i => (values i).content) :
    takeApart codec granted (depth + 1) (.array (.of (codec.encode doc))) =
        some (.array width children) ↔
      (codec.encode doc).length < 2 ^ 32 ∧
        ∀ i, takeApart codec granted depth (values i) = some (children i) := by
  by_cases fits : (codec.encode doc).length < 2 ^ 32
  · have counted : doc.length < 2 ^ 31 := by
      rw [node, length_nodeDoc]
      exact width.isLt
    obtain ⟨got, read, list⟩ := getArray_list (fun element => bsonIterValue element.val) counted
    have vals : (bsonValueGetArray codec granted (.array (.of (codec.encode doc)))).list =
        some (List.ofFn fun i => bsonIterValue (values i).content) := by
      rw [bsonValueGetArray_of granted delimits fits, show granted.malloc = true from rfl, read,
        Outcome.list, list, node, nodeDoc_vals]
    rw [takeApart, vals, Option.bind_eq_bind, Option.bind_some, Option.bind_eq_bind,
      Option.bind_eq_some_iff, and_iff_right fits]
    simp only [Tree.ofValues_eq_some, exists_eq_right, mapM_ofFn, takeApart_content]
  · refine iff_of_false ?_ fun both => fits both.1
    have vals : (bsonValueGetArray codec granted (.array (.of (codec.encode doc)))).list =
        none := by
      simp only [bsonValueGetArray, BsonValue.vDoc, bsonNewFromData_of delimits, if_neg fits]
      rfl
    rw [takeApart, vals]
    simp

theorem takeApart_document_iff
    (delimits : codec.Delimits) {keys : Fin width → CString} {doc : Doc}
    (node : doc = nodeDoc keys fun i => (values i).content) :
    takeApart codec granted (depth + 1) (.document (.of (codec.encode doc))) =
        some (.document width keys children) ↔
      (codec.encode doc).length < 2 ^ 32 ∧
        ∀ i, takeApart codec granted depth (values i) = some (children i) := by
  by_cases fits : (codec.encode doc).length < 2 ^ 32
  · have counted : doc.length < 2 ^ 31 := by
      rw [node, length_nodeDoc]
      exact width.isLt
    obtain ⟨got, read, list⟩ := getArray_list bsonIterElement counted
    have elements : (bsonDocGetElements granted doc).list =
        some (List.ofFn fun i => ⟨keys i, bsonIterValue (values i).content⟩) := by
      rw [bsonDocGetElements, show granted.calloc = true from rfl, read, Outcome.list, list, node,
        nodeDoc_elements]
    have trees : ∀ i,
        (takeApart codec granted depth (values i)).map (keys i, ·) = some (keys i, children i) ↔
          takeApart codec granted depth (values i) = some (children i) := by
      intro i
      rw [Option.map_eq_some_iff]
      simp
    rw [takeApart, bsonValueGetDoc_of delimits fits, Outcome.value, Option.bind_eq_bind,
      Option.bind_some, elements, Option.bind_eq_bind, Option.bind_some, Option.bind_eq_bind,
      Option.bind_eq_some_iff, and_iff_right fits]
    simp only [Tree.ofElements_eq_some, exists_eq_right, mapM_ofFn, takeApart_content, trees]
  · refine iff_of_false ?_ fun both => fits both.1
    have elements : (bsonValueGetDoc codec (.document (.of (codec.encode doc)))).value =
        none := by
      simp only [bsonValueGetDoc, BsonValue.vDoc, bsonNewFromData_of delimits, if_neg fits]
      rfl
    rw [takeApart, elements]
    simp

end TakeApart

theorem height_children
    {width : Nat} {children : Fin width → Tree} {depth : Nat}
    (bounded : (Finset.univ.sup fun i => (children i).height) + 1 ≤ depth + 1) (i : Fin width) :
    (children i).height ≤ depth :=
  (Finset.sup_le_iff.mp (Nat.le_of_succ_le_succ bounded)) i (Finset.mem_univ i)

theorem height_pos (tree : Tree) : 0 < tree.height := by
  cases tree <;> exact Nat.succ_pos _

theorem takeApart_of_succ
    {codec : Codec} {tree : Tree} {value : BsonValue}
    (apart : ∀ depth, tree.height ≤ depth + 1 →
      takeApart codec granted (depth + 1) value = some tree)
    (depth : Nat) (bounded : tree.height ≤ depth) :
    takeApart codec granted depth value = some tree := by
  cases depth with
  | zero => exact absurd bounded (height_pos tree).not_ge
  | succ depth => exact apart depth bounded

section RoundTrips

variable {codec : Codec} {tree : Tree}

theorem Represents.build_eq {value : Value} (represents : Represents codec tree value) :
    build codec granted tree = some (bsonIterValue value) := by
  induction represents with
  | int32 | int64 | double | str => rfl
  | array each data encoding inductionHypothesis =>
      rw [build_array inductionHypothesis]
      simp only [content_bsonIterValue]
      rw [← encoding]
      rfl
  | document each data encoding inductionHypothesis =>
      rw [build_document _ inductionHypothesis]
      simp only [content_bsonIterValue]
      rw [← encoding]
      rfl

theorem Represents.takeApart_eq
    {value : Value} (delimits : codec.Delimits) (represents : Represents codec tree value) :
    ∀ depth, tree.height ≤ depth →
      takeApart codec granted depth (bsonIterValue value) = some tree := by
  induction represents with
  | int32 value =>
      refine takeApart_of_succ fun depth _ => ?_
      rw [bsonIterValue, takeApart, UInt32.toUInt32_toInt32]
  | int64 value =>
      refine takeApart_of_succ fun depth _ => ?_
      rw [bsonIterValue, takeApart, UInt64.toUInt64_toInt64]
  | double bits => exact takeApart_of_succ fun depth _ => rfl
  | str value fits =>
      refine takeApart_of_succ fun depth _ => ?_
      simp only [bsonIterValue, takeApart, Span.str, Span.read_of fits]
  | array each data encoding inductionHypothesis =>
      refine takeApart_of_succ fun depth bounded => ?_
      rw [bsonIterValue, encoding, takeApart_array_iff delimits (nodeDoc_content _ _), ← encoding]
      exact ⟨data.fits, fun i => inductionHypothesis i depth (height_children bounded i)⟩
  | document each data encoding inductionHypothesis =>
      refine takeApart_of_succ fun depth bounded => ?_
      rw [bsonIterValue, encoding, takeApart_document_iff delimits (nodeDoc_content _ _),
        ← encoding]
      exact ⟨data.fits, fun i => inductionHypothesis i depth (height_children bounded i)⟩

/-- A built value that is taken apart to its tree has lost nothing. -/
theorem represents_of_takeApart
    (delimits : codec.Delimits) {depth : Nat} {built : BsonValue}
    (made : build codec granted tree = some built)
    (apart : takeApart codec granted depth built = some tree) :
    ∃ value, Represents codec tree value ∧ built = bsonIterValue value := by
  induction tree generalizing depth built with
  | int32 value => exact ⟨_, .int32 value, (Option.some.inj made).symm⟩
  | int64 value => exact ⟨_, .int64 value, (Option.some.inj made).symm⟩
  | double bits => exact ⟨_, .double bits, (Option.some.inj made).symm⟩
  | str value =>
      obtain rfl := Option.some.inj made
      cases depth with
      | zero => cases apart
      | succ depth =>
          have whole : (Span.of value.bytes).read = value.bytes :=
            congrArg CString.bytes (Tree.str.inj (Option.some.inj apart))
          exact ⟨_, .str value (whole ▸ Span.length_read_lt _), rfl⟩
  | array width children inductionHypothesis =>
      choose values builtEach using fun i => build_total codec (children i)
      rw [build_array builtEach] at made
      obtain rfl := Option.some.inj made
      cases depth with
      | zero => cases apart
      | succ depth =>
          obtain ⟨fits, apartEach⟩ := (takeApart_array_iff delimits rfl).mp apart
          choose values' each same using fun i =>
            inductionHypothesis i (builtEach i) (apartEach i)
          obtain rfl : values = fun i => bsonIterValue (values' i) := funext same
          exact ⟨_, .array each ⟨_, fits⟩ (congrArg codec.encode (nodeDoc_content _ _).symm), rfl⟩
  | document width keys children inductionHypothesis =>
      choose values builtEach using fun i => build_total codec (children i)
      rw [build_document keys builtEach] at made
      obtain rfl := Option.some.inj made
      cases depth with
      | zero => cases apart
      | succ depth =>
          obtain ⟨fits, apartEach⟩ := (takeApart_document_iff delimits rfl).mp apart
          choose values' each same using fun i =>
            inductionHypothesis i (builtEach i) (apartEach i)
          obtain rfl : values = fun i => bsonIterValue (values' i) := funext same
          have encoding := congrArg codec.encode (nodeDoc_content keys values').symm
          exact ⟨_, .document each ⟨_, fits⟩ encoding, rfl⟩

theorem representable_of_treeRoundTrips
    (delimits : codec.Delimits) (roundTrips : TreeRoundTrips codec tree) :
    Representable codec tree := by
  obtain ⟨built, made, apart⟩ := roundTrips
  obtain ⟨value, represents, _⟩ :=
    represents_of_takeApart delimits made (apart tree.height le_rfl)
  exact ⟨value, represents⟩

/-- A tree is taken apart as it was built if and only if the length of every
string and of every encoding in it is a `uint32_t`. -/
theorem nested_round_trip_iff (delimits : codec.Delimits) (tree : Tree) :
    TreeRoundTrips codec tree ↔ Representable codec tree := by
  constructor
  · exact representable_of_treeRoundTrips delimits
  · rintro ⟨value, represents⟩
    exact ⟨_, represents.build_eq, represents.takeApart_eq delimits⟩

end RoundTrips

/-- An array of a number and an empty document. -/
theorem nested_round_trip_iff_array :
    TreeRoundTrips bsonCodec (.array 2 ![.int32 7, .document 0 ![] ![]]) := by
  have inner :
      Represents bsonCodec (.document 0 ![] ![]) (.document ⟨[5, 0, 0, 0, 0], by decide⟩) :=
    @Represents.document bsonCodec 0 ![] ![] ![] (fun i => i.elim0) _ rfl
  have each : ∀ i : Fin 2, Represents bsonCodec (![.int32 7, .document 0 ![] ![]] i)
      (![.int32 7, .document ⟨[5, 0, 0, 0, 0], by decide⟩] i) :=
    Fin.forall_fin_two.mpr ⟨.int32 7, inner⟩
  exact (nested_round_trip_iff bsonCodec_delimits (.array 2 ![.int32 7, .document 0 ![] ![]])).mpr
    ⟨_, .array each ⟨bsonCodec.encode (nodeDoc (fun i => bsonUint32ToString i) _), by decide⟩ rfl⟩

theorem Represents.length_str
    {codec : Codec} {str : CString} {value : Value}
    (represents : Represents codec (.str str) value) : str.bytes.length < 2 ^ 32 := by
  cases represents with
  | str _ fits => exact fits

theorem not_treeRoundTrips_of_long
    {codec : Codec} (delimits : codec.Delimits) {str : CString}
    (long : 2 ^ 32 ≤ str.bytes.length) : ¬ TreeRoundTrips codec (.array 1 ![.str str]) := by
  intro roundTrips
  obtain ⟨value, represents⟩ := representable_of_treeRoundTrips delimits roundTrips
  cases represents with
  | array each data encoding =>
      exact long.not_gt (Fin.forall_fin_one.mp each).length_str

def letters (count : Nat) : CString where
  bytes := List.replicate count 97
  noNul found := absurd (List.eq_of_mem_replicate found) (by decide)

theorem length_letters (count : Nat) : (letters count).bytes.length = count :=
  List.length_replicate

/-- A string of `2 ^ 32 + 5` bytes is appended to an array as five bytes. -/
theorem long_string_is_cut :
    (Span.of (letters (2 ^ 32 + 5)).bytes).read.length = 5 ∧
      ¬ TreeRoundTrips bsonCodec (.array 1 ![.str (letters (2 ^ 32 + 5))]) := by
  have length := length_letters (2 ^ 32 + 5)
  constructor
  · rw [Span.length_read, Span.of, UInt32.toNat_ofNat', length, Nat.add_mod_left]
    decide
  · refine not_treeRoundTrips_of_long bsonCodec_delimits ?_
    rw [length]
    decide

end Bson

end Tpt
