import Tpt.MemPool.Geometry

/-!
What `__mp_free_list_init` leaves in a fresh slab: object `index` links to
object `index + 1`, and the last object holds the end marker.  The slab's
other bytes and all other blocks are untouched.
-/

namespace Tpt.MemPool

open Memory

/-- The word that leads to an object of a slab; past the last object it is the
end marker. -/
def linkTo (geometry : Geometry) (slab index : Nat) : UInt64 :=
  if index < geometry.cnt then
    pack slab (index * geometry.sz)
  else
    pack slab (2 ^ 28 - 1)

theorem pack_slabInx (slabInx : UInt64) (offset : Nat) :
    (slabInx <<< mpOffsetBits) ||| UInt64.ofNat offset = pack slabInx.toNat offset := by
  simp [pack]

theorem load64_metadata_of_ne
    (geometry : Geometry) {heap heap' : Heap} {block index other : Nat} {value : UInt64}
    (stored : heap.store64 ⟨block, index * geometry.sz⟩ value = some heap')
    (different : other ≠ index) :
    heap'.load64 ⟨block, other * geometry.sz⟩ = heap.load64 ⟨block, other * geometry.sz⟩ := by
  apply Heap.load64_store64_disjoint stored
  intro _
  have := geometry.holdsMetadata
  rcases Nat.lt_or_gt_of_ne different with before | after
  · have := geometry.apart before
    exact Or.inl (by dsimp only; omega)
  · have := geometry.apart after
    exact Or.inr (by dsimp only; omega)

structure LoopResult (geometry : Geometry) (block slab index written : Nat)
    (heap heap' : Heap) : Prop where
  shape : heap.SameShape heap'
  others : ∀ id, id ≠ block → heap' id = heap id
  linked : ∀ object, index ≤ object → object < index + written →
    heap'.load64 ⟨block, object * geometry.sz⟩ =
      some (pack slab ((object + 1) * geometry.sz))
  rest : ∀ object, object < index ∨ index + written ≤ object →
    heap'.load64 ⟨block, object * geometry.sz⟩ =
      heap.load64 ⟨block, object * geometry.sz⟩

theorem mpFreeListInitLoop_spec
    (geometry : Geometry) {objSz : UInt32} (size : objSz.toNat = geometry.sz)
    (slabInx : UInt64) {block : Nat} (iterations index : Nat) (heap : Heap)
    (inside : index + iterations < geometry.cnt)
    (slab : ∃ contents, heap block = some contents ∧
      contents.size = geometry.sz * geometry.cnt) :
    ∃ heap', mpFreeListInitLoop objSz (slabInx <<< mpOffsetBits) iterations
        ⟨block, index * geometry.sz⟩ (UInt64.ofNat (index * geometry.sz)) heap =
        some (⟨block, (index + iterations) * geometry.sz⟩, heap') ∧
      LoopResult geometry block slabInx.toNat index iterations heap heap' := by
  induction iterations generalizing index heap with
  | zero =>
      refine ⟨heap, by simp [mpFreeListInitLoop], Heap.SameShape.refl heap,
        fun _ _ => rfl, ?_, fun _ _ => rfl⟩
      intro object lower upper
      omega
  | succ iterations inductionHypothesis =>
      rcases slab with ⟨contents, live, slabSize⟩
      have fitsSlab := geometry.metadata_inside (show index < geometry.cnt by omega)
      have := geometry.holdsMetadata
      have advanced : UInt64.ofNat (index * geometry.sz) + objSz.toUInt64 =
          UInt64.ofNat ((index + 1) * geometry.sz) := by
        rw [← UInt64.ofNat_uInt32ToNat, size, ← UInt64.ofNat_add, Nat.succ_mul]
      rcases Heap.store64_isSome ⟨block, index * geometry.sz⟩ live
          (by dsimp only; omega)
          (pack slabInx.toNat ((index + 1) * geometry.sz)) with ⟨middle, stored⟩
      have middleSlab : ∃ contents, middle block = some contents ∧
          contents.size = geometry.sz * geometry.cnt := by
        rcases (Heap.store64_sameShape stored).live live with ⟨contents', live', same⟩
        exact ⟨contents', live', same.trans slabSize⟩
      rcases inductionHypothesis (index + 1) middle (by omega) middleSlab with
        ⟨heap', looped, result⟩
      refine ⟨heap', ?_, ?_, ?_, ?_, ?_⟩
      · have nextAddress : (index + 1) * geometry.sz = index * geometry.sz + geometry.sz :=
          Nat.succ_mul _ _
        simp only [mpFreeListInitLoop, advanced, pack_slabInx, stored]
        simp only [Ptr.add, size, ← nextAddress]
        rw [looped]
        simp only [Nat.add_assoc, Nat.add_comm 1 iterations]
      · exact (Heap.store64_sameShape stored).trans result.shape
      · intro id different
        rw [result.others id different, Heap.store64_others stored id different]
      · intro object lower upper
        by_cases first : object = index
        · subst object
          rw [result.rest index (by omega), Heap.load64_store64 stored]
        · exact result.linked object (by omega) (by omega)
      · intro object outside
        rw [result.rest object (by omega),
          load64_metadata_of_ne geometry stored (by omega)]

structure FreeListBuilt (geometry : Geometry) (block slab : Nat)
    (heap heap' : Heap) : Prop where
  shape : heap.SameShape heap'
  others : ∀ id, id ≠ block → heap' id = heap id
  linked : ∀ object, object < geometry.cnt →
    heap'.load64 ⟨block, object * geometry.sz⟩ = some (linkTo geometry slab (object + 1))

theorem mpFreeListInit_spec
    (geometry : Geometry) {objSz objCnt : UInt32}
    (size : objSz.toNat = geometry.sz) (count : objCnt.toNat = geometry.cnt)
    (slabInx : UInt64) {block : Nat} (heap : Heap)
    (slab : ∃ contents, heap block = some contents ∧
      contents.size = geometry.sz * geometry.cnt) :
    ∃ heap', mpFreeListInit ⟨block, 0⟩ objSz objCnt slabInx heap = some heap' ∧
      FreeListBuilt geometry block slabInx.toNat heap heap' := by
  have := geometry.nonempty
  have iterations : (objCnt - 1).toNat = geometry.cnt - 1 := by
    rw [UInt32.toNat_sub_of_le objCnt 1 (by rw [UInt32.le_iff_toNat_le, count]; simpa)]
    simp [count]
  rcases mpFreeListInitLoop_spec geometry size slabInx (geometry.cnt - 1) 0 heap
      (by omega) slab with ⟨middle, looped, result⟩
  have last : (0 + (geometry.cnt - 1)) * geometry.sz + 8 ≤ geometry.sz * geometry.cnt := by
    have := geometry.metadata_inside (show 0 + (geometry.cnt - 1) < geometry.cnt by omega)
    have := geometry.holdsMetadata
    omega
  rcases slab with ⟨contents, live, slabSize⟩
  rcases result.shape.live live with ⟨contents', live', same⟩
  rcases Heap.store64_isSome ⟨block, (0 + (geometry.cnt - 1)) * geometry.sz⟩ live'
      (by dsimp only; omega) (pack slabInx.toNat (2 ^ 28 - 1)) with ⟨heap', stored⟩
  refine ⟨heap', ?_, ?_, ?_, ?_⟩
  · have marker : mpOffsetInvalid = UInt64.ofNat (2 ^ 28 - 1) := by decide
    have start : UInt64.ofNat 0 = 0 := rfl
    simp only [Nat.zero_mul, start] at looped
    simp only [mpFreeListInit, iterations, looped, marker, pack_slabInx]
    exact stored
  · exact result.shape.trans (Heap.store64_sameShape stored)
  · intro id different
    rw [Heap.store64_others stored id different, result.others id different]
  · intro object inSlab
    by_cases final : object + 1 = geometry.cnt
    · have position : object = 0 + (geometry.cnt - 1) := by omega
      rw [linkTo, if_neg (by omega), position]
      exact Heap.load64_store64 stored
    · rw [load64_metadata_of_ne geometry stored (by omega),
        result.linked object (by omega) (by omega), linkTo, if_pos (by omega)]

end Tpt.MemPool
