import Tpt.Lib.Chain
import Tpt.MemPool.Allocator
import Tpt.MemPool.FreeList

/-!
# The pool simulates the abstract allocator

`Represents geometry state allocator out` ties a pool to a stack allocator
whose outstanding objects are `out`: the chain of metadata words from
`mp_free_next` is the stack, and every outstanding object remembers its own
position.  Each operation of the pool is shown to preserve this relation
while the allocator performs the corresponding abstract operation.
-/

namespace Tpt.MemPool

open Memory StackAllocator

abbrev Position := Nat × Nat

def place (geometry : Geometry) (object : Object) : Position :=
  (object.1, object.2 * geometry.sz)

/-- The position a metadata word leads to, unless it is an end marker. -/
def linkTarget (metadata : UInt64) : Option Position :=
  let (inx, offset) := mpMetadataToInxAndOffset metadata
  if offset.toUInt64 = mpOffsetInvalid then none else some (inx.toNat, offset.toNat)

def slabBlock (slabs : Fin mpSlabsMax → Option Nat) (slab : Nat) : Option Nat :=
  if inArray : slab < mpSlabsMax then slabs ⟨slab, inArray⟩ else none

def metadataAt (slabs : Fin mpSlabsMax → Option Nat) (heap : Heap) (position : Position) :
    Option UInt64 :=
  (slabBlock slabs position.1).bind fun block => heap.load64 ⟨block, position.2⟩

/-- The address `argo_mem_pool_get` returns for an object. -/
def objectAddress (sz : Nat) (slabs : Fin mpSlabsMax → Option Nat)
    (object : Object) : Option Ptr :=
  (slabBlock slabs object.1).map fun block => ⟨block, object.2 * sz + mpMetadataSz⟩

theorem linkTarget_pack {slab offset : Nat}
    (slabBound : slab < 2 ^ 36) (offsetBound : offset + 8 ≤ 2 ^ 28) :
    linkTarget (pack slab offset) = some (slab, offset) := by
  have value := pack_toNat slabBound (show offset < 2 ^ 28 by omega)
  have valid : ¬(mpMetadataToInxAndOffset (pack slab offset)).2.toUInt64 = mpOffsetInvalid := by
    rw [offset_invalid_iff, value]
    omega
  simp only [linkTarget, valid, if_false, inx_toNat, offset_toNat, value]
  congr 2 <;> omega

theorem linkTarget_end {slab : Nat} (slabBound : slab < 2 ^ 36) :
    linkTarget (pack slab (2 ^ 28 - 1)) = none := by
  have value := pack_toNat slabBound (show 2 ^ 28 - 1 < 2 ^ 28 by omega)
  have invalid :
      (mpMetadataToInxAndOffset (pack slab (2 ^ 28 - 1))).2.toUInt64 = mpOffsetInvalid := by
    rw [offset_invalid_iff, value]
    omega
  simp only [linkTarget, invalid, if_true]

theorem mpInxAndOffsetToAddr_eq (mp : ArgoMemPool) (inx : UInt64) (offset : UInt32) :
    mpInxAndOffsetToAddr mp inx offset =
      (slabBlock mp.slabs inx.toNat).map fun block => ⟨block, offset.toNat⟩ := by
  unfold mpInxAndOffsetToAddr slabBlock
  split <;> simp

structure SlabTable (geometry : Geometry) (state : PoolState) : Prop where
  fits : geometry.Fits state.mp
  bounded : state.mp.mpSlabCnt.toNat ≤ mpSlabsMax
  live : ∀ slab, slab < state.mp.mpSlabCnt.toNat →
    ∃ block contents, slabBlock state.mp.slabs slab = some block ∧
      state.heap block = some contents ∧ contents.size = geometry.sz * geometry.cnt
  unused : ∀ slab, state.mp.mpSlabCnt.toNat ≤ slab → slabBlock state.mp.slabs slab = none
  distinct : ∀ slab other block, slabBlock state.mp.slabs slab = some block →
    slabBlock state.mp.slabs other = some block → slab = other

/-- A pool whose free list is the stack of `allocator` and whose outstanding
objects are `out`. -/
structure Represents (geometry : Geometry) (state : PoolState)
    (allocator : StackAllocator) (out : List Object) : Prop extends
    SlabTable geometry state where
  count : state.mp.mpSlabCnt.toNat = allocator.slabCnt
  chain : Chain linkTarget (metadataAt state.mp.slabs state.heap) state.mp.mpFreeNext
    (allocator.free.map (place geometry))
  own : ∀ object ∈ out, metadataAt state.mp.slabs state.heap (place geometry object) =
    some (pack object.1 (object.2 * geometry.sz))
  partition : Partition geometry.cnt allocator out

/-- A slab byte that belongs to no metadata word. -/
def ClientByte (state : PoolState) (pointer : Ptr) : Prop :=
  ∃ slab, slab < state.mp.mpSlabCnt.toNat ∧
    slabBlock state.mp.slabs slab = some pointer.block ∧
    pointer.offset < state.mp.mpObjSz.toNat * state.mp.mpObjCnt.toNat ∧
    mpMetadataSz ≤ pointer.offset % state.mp.mpObjSz.toNat

def KeepsClientBytes (state state' : PoolState) : Prop :=
  ∀ pointer, ClientByte state pointer →
    state'.heap.byte? pointer = state.heap.byte? pointer

section Store

variable {geometry : Geometry} {state : PoolState} {object : Object} {value : UInt64}

/-- The heap after the metadata word of `object` has been replaced. -/
structure MetadataStored (geometry : Geometry) (state : PoolState) (object : Object)
    (value : UInt64) (heap : Heap) : Prop where
  shape : state.heap.SameShape heap
  written : metadataAt state.mp.slabs heap (place geometry object) = some value
  others : ∀ other, other ≠ object →
    metadataAt state.mp.slabs heap (place geometry other) =
      metadataAt state.mp.slabs state.heap (place geometry other)
  client : KeepsClientBytes state { state with heap := heap }

theorem Geometry.client_outside (geometry : Geometry) {offset : Nat} (index : Nat)
    (client : 8 ≤ offset % geometry.sz) :
    offset < index * geometry.sz ∨ index * geometry.sz + 8 ≤ offset := by
  by_contra inMetadata
  have bounds : index * geometry.sz ≤ offset ∧ offset < index * geometry.sz + 8 := by omega
  rcases Nat.exists_eq_add_of_le bounds.1 with ⟨within, rfl⟩
  have := geometry.holdsMetadata
  rw [Nat.add_comm, Nat.add_mul_mod_self_right, Nat.mod_eq_of_lt (by omega)] at client
  omega

theorem SlabTable.store (table : SlabTable geometry state)
    {block : Nat} (slab : slabBlock state.mp.slabs object.1 = some block)
    (inSlab : object.2 < geometry.cnt) (value : UInt64) :
    ∃ heap, state.heap.store64 ⟨block, object.2 * geometry.sz⟩ value = some heap ∧
      MetadataStored geometry state object value heap := by
  have inUse : object.1 < state.mp.mpSlabCnt.toNat := by
    by_contra outside
    rw [table.unused object.1 (by omega)] at slab
    contradiction
  rcases table.live object.1 inUse with ⟨found, contents, foundSlab, live, size⟩
  obtain rfl : found = block := Option.some.inj (foundSlab.symm.trans slab)
  have inside := geometry.metadata_inside inSlab
  have := geometry.holdsMetadata
  rcases Heap.store64_isSome ⟨found, object.2 * geometry.sz⟩ live
      (by dsimp only; omega) value with ⟨heap, stored⟩
  refine ⟨heap, stored, Heap.store64_sameShape stored, ?_, ?_, ?_⟩
  · simp [metadataAt, place, slab, Heap.load64_store64 stored]
  · intro other different
    cases otherSlab : slabBlock state.mp.slabs other.1 with
    | none => simp [metadataAt, place, otherSlab]
    | some otherBlock =>
        simp only [metadataAt, place, otherSlab, Option.bind_some]
        by_cases same : otherBlock = found
        · subst otherBlock
          have slabs := table.distinct _ _ _ otherSlab slab
          have indices : other.2 ≠ object.2 := fun equal =>
            different (Prod.ext slabs equal)
          exact load64_metadata_of_ne geometry stored indices
        · exact Heap.load64_store64_disjoint stored fun equal => absurd equal same
  · rintro pointer ⟨_, _, _, _, client⟩
    rw [table.fits.1] at client
    apply Heap.byte?_store64_disjoint stored
    intro _
    exact geometry.client_outside object.2 client

end Store

/-- Which blocks are slabs and how large every live block is.  The contents of
memory are left out, so client writes do not change the layout. -/
structure Layout where
  slabs : Fin mpSlabsMax → Option Nat
  sizes : Nat → Option Nat

def PoolState.layout (state : PoolState) : Layout :=
  { slabs := state.mp.slabs, sizes := fun id => (state.heap id).map Block.size }

def Layout.addSlab (layout : Layout) (slab block size : Nat) : Layout :=
  { slabs := fun index => if index.val = slab then some block else layout.slabs index
    sizes := Function.update layout.sizes block (some size) }

theorem layout_of_sameShape {state : PoolState} {heap : Heap} (mp : ArgoMemPool)
    (shape : state.heap.SameShape heap) (slabs : mp.slabs = state.mp.slabs) :
    PoolState.layout { heap, mp } = state.layout := by
  simp only [PoolState.layout, slabs, Layout.mk.injEq, true_and]
  funext id
  exact shape id

section Steps

variable {geometry : Geometry} {state : PoolState} {allocator : StackAllocator}
  {out : List Object}

/-- Replacing contents without changing slabs, geometry or sizes keeps the
slab table. -/
theorem SlabTable.of_layout (table : SlabTable geometry state) {state' : PoolState}
    (layout : state'.layout = state.layout)
    (slabCnt : state'.mp.mpSlabCnt = state.mp.mpSlabCnt)
    (fits : geometry.Fits state'.mp) : SlabTable geometry state' := by
  have slabs : state'.mp.slabs = state.mp.slabs := congrArg Layout.slabs layout
  refine ⟨fits, slabCnt ▸ table.bounded, ?_, ?_, ?_⟩
  · intro slab inUse
    rw [slabCnt] at inUse
    rcases table.live slab inUse with ⟨block, contents, found, live, size⟩
    have sizes : (state'.heap block).map Block.size = (state.heap block).map Block.size :=
      congrFun (congrArg Layout.sizes layout) block
    rw [live] at sizes
    simp only [Option.map_some, Option.map_eq_some_iff] at sizes
    rcases sizes with ⟨contents', live', same⟩
    exact ⟨block, contents', slabs ▸ found, live', same.trans size⟩
  · rw [slabs, slabCnt]
    exact table.unused
  · rw [slabs]
    exact table.distinct

theorem Represents.in_use (represents : Represents geometry state allocator out)
    {object : Object} (membership : object ∈ allocator.free ++ out) :
    object.1 < state.mp.mpSlabCnt.toNat ∧ object.2 < geometry.cnt ∧
      object.1 < 2 ^ 36 ∧ ∃ block, slabBlock state.mp.slabs object.1 = some block := by
  have covered := (represents.partition.covers object).mp membership
  have inUse : object.1 < state.mp.mpSlabCnt.toNat := represents.count ▸ covered.1
  have := represents.bounded
  rcases represents.live object.1 inUse with ⟨block, _, found, _, _⟩
  refine ⟨inUse, covered.2, by simp only [mpSlabsMax] at this; omega, block, found⟩

theorem place_injective (geometry : Geometry) : Function.Injective (place geometry) := by
  rintro ⟨slab, index⟩ ⟨otherSlab, otherIndex⟩ same
  simp only [place, Prod.mk.injEq] at same
  rw [same.1, geometry.index_eq_of_offset_eq same.2]

theorem argoMemPoolUnlink_spec (represents : Represents geometry state allocator out)
    {object : Object} {rest : List Object} (top : allocator.free = object :: rest) :
    ∃ addr state',
      (mpMetadataToInxAndOffset state.mp.mpFreeNext).2.toUInt64 ≠ mpOffsetInvalid ∧
      argoMemPoolUnlink (mpMetadataToInxAndOffset state.mp.mpFreeNext).1
        (mpMetadataToInxAndOffset state.mp.mpFreeNext).2 state = some (some addr, state') ∧
      objectAddress geometry.sz state.mp.slabs object = some addr ∧
      Represents geometry state' { allocator with free := rest } (object :: out) ∧
      state'.layout = state.layout ∧ KeepsClientBytes state state' := by
  have membership : object ∈ allocator.free ++ out := by simp [top]
  rcases represents.in_use membership with ⟨_, inSlab, slabBound, block, slab⟩
  have chain := represents.chain
  rw [top, List.map_cons] at chain
  rcases Chain.cons_iff.mp chain with ⟨enters, link, stored, chainRest⟩
  have valid : (mpMetadataToInxAndOffset state.mp.mpFreeNext).2.toUInt64 ≠ mpOffsetInvalid := by
    intro invalid
    simp [linkTarget, invalid] at enters
  have position : (mpMetadataToInxAndOffset state.mp.mpFreeNext).1.toNat = object.1 ∧
      (mpMetadataToInxAndOffset state.mp.mpFreeNext).2.toNat = object.2 * geometry.sz := by
    simpa [linkTarget, valid, place] using enters
  have loaded : state.heap.load64 ⟨block, object.2 * geometry.sz⟩ = some link := by
    simpa [metadataAt, place, slab] using stored
  rcases represents.store slab inSlab (pack object.1 (object.2 * geometry.sz)) with
    ⟨heap, written, effect⟩
  have word : ((mpMetadataToInxAndOffset state.mp.mpFreeNext).1 <<< mpOffsetBits) |||
      (mpMetadataToInxAndOffset state.mp.mpFreeNext).2.toUInt64 =
        pack object.1 (object.2 * geometry.sz) := by
    rw [← UInt64.ofNat_uInt32ToNat, pack_slabInx, position.1, position.2]
  refine ⟨⟨block, object.2 * geometry.sz + mpMetadataSz⟩,
    { heap, mp := { state.mp with mpFreeNext := link } }, valid, ?_, ?_, ?_, ?_,
    effect.client⟩
  · simp only [argoMemPoolUnlink, mpInxAndOffsetToAddr_eq, position, slab, Option.map_some,
      loaded, word, written]
    rfl
  · simp [objectAddress, slab]
  · have nodup := represents.partition.nodup
    rw [top, List.cons_append, List.nodup_cons] at nodup
    have layout := layout_of_sameShape { state.mp with mpFreeNext := link } effect.shape rfl
    refine ⟨represents.toSlabTable.of_layout layout rfl represents.fits,
      represents.count, ?_, ?_, represents.partition.pop top⟩
    · apply Chain.congr chainRest
      intro visited membership
      rcases List.mem_map.mp membership with ⟨other, inRest, rfl⟩
      apply effect.others
      rintro rfl
      exact nodup.1 (List.mem_append_left _ inRest)
    · intro other inOut
      by_cases same : other = object
      · rw [same]
        exact effect.written
      · have oldOut : other ∈ out := (List.mem_cons.mp inOut).resolve_left same
        exact (effect.others other same).trans (represents.own other oldOut)
  · exact layout_of_sameShape _ effect.shape rfl

theorem argoMemPoolPut_spec (represents : Represents geometry state allocator out)
    {object : Object} (held : object ∈ out) {addr : Ptr}
    (address : objectAddress geometry.sz state.mp.slabs object = some addr) :
    ∃ state', argoMemPoolPut addr state = some state' ∧
      Represents geometry state' (allocator.put object) (out.erase object) ∧
      state'.layout = state.layout ∧ KeepsClientBytes state state' := by
  rcases represents.in_use (List.mem_append_right _ held) with
    ⟨_, inSlab, slabBound, block, slab⟩
  obtain rfl : ⟨block, object.2 * geometry.sz + mpMetadataSz⟩ = addr := by
    simpa [objectAddress, slab] using address
  have loaded : state.heap.load64 ⟨block, object.2 * geometry.sz⟩ =
      some (pack object.1 (object.2 * geometry.sz)) := by
    simpa [metadataAt, place, slab] using represents.own object held
  rcases represents.store slab inSlab state.mp.mpFreeNext with ⟨heap, written, effect⟩
  have nodup := represents.partition.nodup
  have outNodup : out.Nodup := nodup.of_append_right
  have layout := layout_of_sameShape
    { state.mp with mpFreeNext := pack object.1 (object.2 * geometry.sz) } effect.shape rfl
  refine ⟨_, ?_, ⟨represents.toSlabTable.of_layout layout rfl represents.fits,
    represents.count, ?_, ?_, represents.partition.put held⟩, layout, effect.client⟩
  · simp [argoMemPoolPut, loaded, written]
  · refine .cons (linkTarget_pack slabBound (geometry.offset_bound inSlab)) effect.written ?_
    apply Chain.congr represents.chain
    intro visited membership
    rcases List.mem_map.mp membership with ⟨other, inFree, rfl⟩
    apply effect.others
    rintro rfl
    exact List.disjoint_of_nodup_append nodup inFree held
  · intro other inOut
    have different : other ≠ object := fun same =>
      outNodup.not_mem_erase (same ▸ inOut)
    exact (effect.others other different).trans
      (represents.own other (List.mem_of_mem_erase inOut))

/-- A client write outside the metadata words is invisible to the allocator. -/
theorem store8_spec (represents : Represents geometry state allocator out)
    {pointer : Ptr} (client : ClientByte state pointer) (byte : UInt8) :
    ∃ heap, state.heap.store8 pointer byte = some heap ∧
      Represents geometry { state with heap := heap } allocator out ∧
      PoolState.layout { state with heap := heap } = state.layout := by
  rcases client with ⟨slab, inUse, slabFound, inside, payload⟩
  rw [represents.fits.1, represents.fits.2] at inside
  rw [represents.fits.1] at payload
  rcases represents.live slab inUse with ⟨block, contents, found, live, size⟩
  obtain rfl : block = pointer.block := Option.some.inj (found.symm.trans slabFound)
  have stored : state.heap.store8 pointer byte = some (state.heap.setBytes pointer.block
      contents (Function.update contents.bytes pointer.offset byte)) :=
    Heap.store8_eq_some_iff.mpr ⟨contents, live, size ▸ inside, rfl⟩
  have layout := layout_of_sameShape state.mp (Heap.store8_sameShape stored) rfl
  have unchanged : ∀ object : Object,
      metadataAt state.mp.slabs (state.heap.setBytes pointer.block contents
          (Function.update contents.bytes pointer.offset byte)) (place geometry object) =
        metadataAt state.mp.slabs state.heap (place geometry object) := by
    intro object
    cases objectSlab : slabBlock state.mp.slabs object.1 with
    | none => simp [metadataAt, place, objectSlab]
    | some objectBlock =>
        simp only [metadataAt, place, objectSlab, Option.bind_some]
        apply Heap.load64_store8_disjoint stored
        intro _
        exact geometry.client_outside object.2 payload
  refine ⟨_, stored, ⟨represents.toSlabTable.of_layout layout rfl represents.fits,
    represents.count, ?_, ?_, represents.partition⟩, layout⟩
  · apply Chain.congr represents.chain
    intro visited membership
    rcases List.mem_map.mp membership with ⟨object, _, rfl⟩
    exact unchanged object
  · intro object inOut
    exact (unchanged object).trans (represents.own object inOut)

end Steps

end Tpt.MemPool
