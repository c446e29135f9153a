import Tpt.MemPool.Simulation

/-!
# Getting an object

Growing the pool by a slab corresponds to `StackAllocator.addSlab`.  With the
unlink step this gives the specification of `argo_mem_pool_get`, and with an
empty table that of `argo_mem_pool_create`.
-/

namespace Tpt.MemPool

open Memory StackAllocator

/-- The words of a fresh slab lead through all its objects, from any of them
to the end. -/
theorem FreeListBuilt.chain {geometry : Geometry} {block slab : Nat} {heap heap' : Heap}
    (built : FreeListBuilt geometry block slab heap heap')
    (slabs : Fin mpSlabsMax → Option Nat) (found : slabBlock slabs slab = some block)
    (slabBound : slab < 2 ^ 36) (count index : Nat) (reaches : index + count = geometry.cnt) :
    Chain linkTarget (metadataAt slabs heap') (linkTo geometry slab index)
      ((List.range' index count).map fun object => place geometry (slab, object)) := by
  induction count generalizing index with
  | zero =>
      apply Chain.nil
      rw [linkTo, if_neg (by omega)]
      exact linkTarget_end slabBound
  | succ count inductionHypothesis =>
      rw [List.range'_succ, List.map_cons]
      refine .cons ?_ ?_ (inductionHypothesis (index + 1) (by omega))
      · rw [linkTo, if_pos (by omega)]
        exact linkTarget_pack slabBound (geometry.offset_bound (by omega))
      · simp [metadataAt, place, found, built.linked index (by omega)]

theorem slabBlock_update (slabs : Fin mpSlabsMax → Option Nat) {slab : Nat}
    (inArray : slab < mpSlabsMax) (value : Option Nat) (other : Nat) :
    slabBlock (Function.update slabs ⟨slab, inArray⟩ value) other =
      if other = slab then value else slabBlock slabs other := by
  by_cases same : other = slab
  · subst other
    simp [slabBlock, inArray]
  · unfold slabBlock
    split
    · simp [same]
    · simp

section Grow

variable {geometry : Geometry} {state : PoolState} {allocator : StackAllocator}
  {out : List Object}

theorem mpSlabBytes_toNat (fits : geometry.Fits state.mp) :
    (mpSlabBytes state.mp).toNat = geometry.sz * geometry.cnt := by
  have := geometry.capped
  rw [mpSlabBytes, UInt32.toNat_mul, fits.1, fits.2]
  exact Nat.mod_eq_of_lt (by omega)

theorem SlabTable.block_live (table : SlabTable geometry state) {slab block : Nat}
    (found : slabBlock state.mp.slabs slab = some block) : state.heap block ≠ none := by
  have inUse : slab < state.mp.mpSlabCnt.toNat := by
    by_contra outside
    rw [table.unused slab (by omega)] at found
    contradiction
  rcases table.live slab inUse with ⟨other, contents, otherFound, live, _⟩
  obtain rfl : other = block := Option.some.inj (otherFound.symm.trans found)
  simp [live]

theorem mpCreateNewSlab_none (table : SlabTable geometry state)
    (room : state.mp.mpSlabCnt.toNat < mpSlabsMax) :
    mpCreateNewSlab none state = some (1, state) := by
  have unused : state.mp.slabs ⟨state.mp.mpSlabCnt.toNat, room⟩ = none := by
    simpa [slabBlock, room] using table.unused _ (le_refl _)
  have same : Function.update state.mp.slabs ⟨state.mp.mpSlabCnt.toNat, room⟩ none =
      state.mp.slabs := by
    rw [← unused, Function.update_eq_self]
  simp only [mpCreateNewSlab, dif_pos room, same]

def PoolState.withSlab (state : PoolState) (room : state.mp.mpSlabCnt.toNat < mpSlabsMax)
    (block : Nat) (heap : Heap) : PoolState :=
  { heap
    mp := { state.mp with
      slabs := Function.update state.mp.slabs ⟨state.mp.mpSlabCnt.toNat, room⟩ (some block)
      mpFreeNext := state.mp.mpSlabCnt <<< mpOffsetBits
      mpSlabCnt := state.mp.mpSlabCnt + 1 } }

theorem withSlab_slabCnt (room : state.mp.mpSlabCnt.toNat < mpSlabsMax)
    (block : Nat) (heap : Heap) :
    (state.withSlab room block heap).mp.mpSlabCnt.toNat = state.mp.mpSlabCnt.toNat + 1 := by
  simp only [mpSlabsMax] at room
  simp only [PoolState.withSlab, UInt64.toNat_add, UInt64.reduceToNat]
  omega

theorem SlabTable.grow (table : SlabTable geometry state)
    (room : state.mp.mpSlabCnt.toNat < mpSlabsMax) {block : Nat} {contents : Block}
    {heap : Heap} (fresh : state.heap block = none) (live : heap block = some contents)
    (size : contents.size = geometry.sz * geometry.cnt)
    (others : ∀ id, id ≠ block → heap id = state.heap id) :
    SlabTable geometry (state.withSlab room block heap) := by
  have old : ∀ slab id, slabBlock state.mp.slabs slab = some id → id ≠ block := by
    rintro slab id found rfl
    exact table.block_live found fresh
  refine ⟨table.fits, by rw [withSlab_slabCnt]; exact room, ?_, ?_, ?_⟩
  · intro slab inUse
    rw [withSlab_slabCnt] at inUse
    simp only [PoolState.withSlab, slabBlock_update]
    by_cases added : slab = state.mp.mpSlabCnt.toNat
    · exact ⟨block, contents, by simp [added], live, size⟩
    · rcases table.live slab (by omega) with ⟨id, contents', found, live', size'⟩
      refine ⟨id, contents', by simp [added, found], ?_, size'⟩
      rw [others id (old slab id found), live']
  · intro slab outside
    rw [withSlab_slabCnt] at outside
    simp only [PoolState.withSlab, slabBlock_update]
    rw [if_neg (by omega)]
    exact table.unused slab (by omega)
  · have updated : slabBlock (state.withSlab room block heap).mp.slabs =
        Function.update (slabBlock state.mp.slabs) state.mp.mpSlabCnt.toNat (some block) := by
      funext slab
      rw [Function.update_apply]
      exact slabBlock_update _ room _ slab
    rw [updated]
    exact distinct_update table.distinct _ fun slab found => old slab block found rfl

theorem SlabTable.metadataAt_withSlab (table : SlabTable geometry state)
    (room : state.mp.mpSlabCnt.toNat < mpSlabsMax) {block : Nat} {heap : Heap}
    (fresh : state.heap block = none) (others : ∀ id, id ≠ block → heap id = state.heap id)
    {position : Position} (inUse : position.1 < state.mp.mpSlabCnt.toNat) :
    metadataAt (state.withSlab room block heap).mp.slabs heap position =
      metadataAt state.mp.slabs state.heap position := by
  rcases table.live position.1 inUse with ⟨id, _, found, _, _⟩
  have different : id ≠ block := by
    rintro rfl
    exact table.block_live found fresh
  simp only [PoolState.withSlab, metadataAt, slabBlock_update, if_neg (Nat.ne_of_lt inUse), found,
    Option.bind_some]
  apply Heap.load64_eq_of_block
  exact others id different

theorem SlabTable.keepsClientBytes_withSlab (table : SlabTable geometry state)
    (room : state.mp.mpSlabCnt.toNat < mpSlabsMax) {block : Nat} {heap : Heap}
    (fresh : state.heap block = none) (others : ∀ id, id ≠ block → heap id = state.heap id) :
    KeepsClientBytes state (state.withSlab room block heap) := by
  rintro pointer ⟨slab, inUse, found, _, _⟩
  apply Heap.byte?_eq_of_block
  apply others
  rintro same
  exact table.block_live found (same ▸ fresh)

theorem withSlab_layout (room : state.mp.mpSlabCnt.toNat < mpSlabsMax) {block : Nat}
    {contents : Block} {heap : Heap} (live : heap block = some contents)
    (others : ∀ id, id ≠ block → heap id = state.heap id) :
    (state.withSlab room block heap).layout =
      state.layout.addSlab state.mp.mpSlabCnt.toNat block contents.size := by
  simp only [PoolState.withSlab, PoolState.layout, Layout.addSlab, Layout.mk.injEq]
  constructor
  · funext index
    by_cases added : index.val = state.mp.mpSlabCnt.toNat
    · simp [Function.update_apply, Fin.ext_iff, added]
    · simp [Fin.ext_iff, added]
  · funext id
    by_cases same : id = block
    · subst id
      simp [live]
    · simp [Function.update_of_ne same, others id same]

theorem FreeListBuilt.chain_withSlab {block : Nat} {before heap : Heap}
    (room : state.mp.mpSlabCnt.toNat < mpSlabsMax)
    (built : FreeListBuilt geometry block state.mp.mpSlabCnt.toNat before heap) :
    Chain linkTarget (metadataAt (state.withSlab room block heap).mp.slabs heap)
      (state.mp.mpSlabCnt <<< mpOffsetBits)
      ((slabObjects geometry.cnt state.mp.mpSlabCnt.toNat).map (place geometry)) := by
  have slabBound : state.mp.mpSlabCnt.toNat < 2 ^ 36 := by
    simp only [mpSlabsMax] at room
    omega
  have start : state.mp.mpSlabCnt <<< mpOffsetBits =
      linkTo geometry state.mp.mpSlabCnt.toNat 0 := by
    have := geometry.nonempty
    rw [linkTo, if_pos (by omega), ← pack_slabInx]
    simp
  have objects : (slabObjects geometry.cnt state.mp.mpSlabCnt.toNat).map (place geometry) =
      (List.range' 0 geometry.cnt).map fun object =>
        place geometry (state.mp.mpSlabCnt.toNat, object) := by
    simp only [slabObjects, List.range_eq_range', List.map_map]
    rfl
  rw [start, objects]
  exact built.chain _ (by simp [PoolState.withSlab, slabBlock_update]) slabBound geometry.cnt 0
    (by omega)

/-- A new slab is pushed on the empty stack. -/
theorem mpCreateNewSlab_spec (table : SlabTable geometry state)
    (count : state.mp.mpSlabCnt.toNat = allocator.slabCnt)
    (own : ∀ object ∈ out, metadataAt state.mp.slabs state.heap (place geometry object) =
      some (pack object.1 (object.2 * geometry.sz)))
    (partition : Partition geometry.cnt allocator out) (empty : allocator.free = [])
    (room : allocator.slabCnt < mpSlabsMax) {allocation : Allocation}
    (fresh : state.heap allocation.block = none) :
    ∃ state', mpCreateNewSlab (some allocation) state = some (0, state') ∧
      Represents geometry state' (allocator.addSlab geometry.cnt) out ∧
      state'.layout = state.layout.addSlab allocator.slabCnt allocation.block
        (geometry.sz * geometry.cnt) ∧
      KeepsClientBytes state state' := by
  have inArray : state.mp.mpSlabCnt.toNat < mpSlabsMax := count ▸ room
  have bytes := mpSlabBytes_toNat table.fits
  rcases mpFreeListInit_spec geometry table.fits.1 table.fits.2 state.mp.mpSlabCnt
      (state.heap.allocate allocation.block (mpSlabBytes state.mp).toNat allocation.bytes)
      ⟨_, Heap.allocate_self _ _ _ _, bytes⟩ with ⟨heap, initialised, built⟩
  rcases built.shape.live (Heap.allocate_self state.heap _ _ _) with ⟨contents, live, size⟩
  have others : ∀ id, id ≠ allocation.block → heap id = state.heap id := by
    intro id different
    rw [built.others id different, Heap.allocate_of_ne _ _ _ different]
  have grown : SlabTable geometry (state.withSlab inArray allocation.block heap) :=
    table.grow inArray fresh live (size.trans bytes) others
  refine ⟨state.withSlab inArray allocation.block heap, ?_,
    ⟨grown, ?_, ?_, ?_, partition.addSlab⟩, ?_,
    table.keepsClientBytes_withSlab inArray fresh others⟩
  · simp only [mpCreateNewSlab, dif_pos inArray, initialised]
    rfl
  · rw [withSlab_slabCnt, count]
    rfl
  · have chain := built.chain_withSlab inArray
    have pushed : (allocator.addSlab geometry.cnt).free =
        slabObjects geometry.cnt state.mp.mpSlabCnt.toNat := by
      simp [addSlab, empty, count]
    rw [pushed]
    exact chain
  · intro object inOut
    have inUse : (place geometry object).1 < state.mp.mpSlabCnt.toNat :=
      count ▸ ((partition.covers object).mp (List.mem_append_right _ inOut)).1
    exact (table.metadataAt_withSlab inArray fresh others inUse).trans (own object inOut)
  · rw [withSlab_layout inArray live others, count, size]
    exact congrArg _ bytes

/-- The layout after a get: a slab is added when the stack is empty, the table
has room and memory is available. -/
def Layout.afterGet (geometry : Geometry) (allocator : StackAllocator)
    (outcome : Option Allocation) (layout : Layout) : Layout :=
  match outcome with
  | some allocation =>
      if allocator.free = [] ∧ allocator.slabCnt < mpSlabsMax then
        layout.addSlab allocator.slabCnt allocation.block (geometry.sz * geometry.cnt)
      else
        layout
  | none => layout

theorem slabBlock_addSlab {layout : Layout} {added block size slab : Nat}
    (different : slab ≠ added) :
    slabBlock (layout.addSlab added block size).slabs slab = slabBlock layout.slabs slab := by
  simp [slabBlock, Layout.addSlab, different]

theorem ClientByte.addSlab {state' : PoolState} {block size : Nat} {pointer : Ptr}
    (client : ClientByte state pointer)
    (layout : state'.layout = state.layout.addSlab state.mp.mpSlabCnt.toNat block size)
    (slabCnt : state.mp.mpSlabCnt.toNat ≤ state'.mp.mpSlabCnt.toNat)
    (fits : geometry.Fits state.mp) (fits' : geometry.Fits state'.mp) :
    ClientByte state' pointer := by
  rcases client with ⟨slab, inUse, found, inside, payload⟩
  have slabs : state'.mp.slabs = _ := congrArg Layout.slabs layout
  refine ⟨slab, by omega, ?_, ?_, ?_⟩
  · rw [slabs, slabBlock_addSlab (Nat.ne_of_lt inUse)]
    exact found
  · rw [fits'.1, fits'.2, ← fits.1, ← fits.2]
    exact inside
  · rw [fits'.1, ← fits.1]
    exact payload

structure GetEffect (geometry : Geometry) (outcome : Option Allocation)
    (allocator : StackAllocator) (out : List Object) (state : PoolState)
    (result : Option Ptr) (state' : PoolState) : Prop where
  represents : Represents geometry state'
    (allocator.get geometry.cnt mpSlabsMax outcome.isSome).2
    ((allocator.get geometry.cnt mpSlabsMax outcome.isSome).1.toList ++ out)
  returned : (allocator.get geometry.cnt mpSlabsMax outcome.isSome).1.map
    (objectAddress geometry.sz state'.mp.slabs) = result.map some
  layout : state'.layout = state.layout.afterGet geometry allocator outcome
  client : KeepsClientBytes state state'
  failed : result = none → state' = state

theorem GetEffect.of_failure {outcome : Option Allocation}
    (represents : Represents geometry state allocator out) (empty : allocator.free = [])
    (blocked : ¬(allocator.slabCnt < mpSlabsMax ∧ outcome.isSome = true)) :
    GetEffect geometry outcome allocator out state none state := by
  have abstract : allocator.get geometry.cnt mpSlabsMax outcome.isSome = (none, allocator) := by
    simp only [StackAllocator.get, empty, true_and, if_neg blocked, StackAllocator.pop]
  refine ⟨?_, ?_, ?_, fun _ _ => rfl, fun _ => rfl⟩
  · simpa [abstract] using represents
  · simp [abstract]
  · cases outcome with
    | none => rfl
    | some allocation =>
        have full : ¬allocator.slabCnt < mpSlabsMax := by simpa using blocked
        simp [Layout.afterGet, empty, full]

theorem Represents.head_invalid (represents : Represents geometry state allocator out)
    (empty : allocator.free = []) :
    (mpMetadataToInxAndOffset state.mp.mpFreeNext).2.toUInt64 = mpOffsetInvalid := by
  have chain := represents.chain
  rw [empty, List.map_nil, Chain.nil_iff] at chain
  by_contra valid
  simp [linkTarget, valid] at chain

theorem argoMemPoolGet_pop (represents : Represents geometry state allocator out)
    {object : Object} {rest : List Object} (free : allocator.free = object :: rest)
    (outcome : Option Allocation) :
    ∃ result state', argoMemPoolGet outcome state = some (result, state') ∧
      GetEffect geometry outcome allocator out state result state' := by
  rcases argoMemPoolUnlink_spec represents free with
    ⟨addr, state', valid, unlinked, address, represents', layout, client⟩
  have slabs : state'.mp.slabs = state.mp.slabs := congrArg Layout.slabs layout
  have abstract : allocator.get geometry.cnt mpSlabsMax outcome.isSome =
      (some object, { allocator with free := rest }) := by
    simp [StackAllocator.get, StackAllocator.pop, free]
  refine ⟨some addr, state', ?_, ?_, ?_, ?_, client, by simp⟩
  · simp only [argoMemPoolGet, if_neg valid, unlinked]
  · simpa [abstract] using represents'
  · simp [abstract, slabs, address]
  · cases outcome <;> simp [Layout.afterGet, free, layout]

theorem Represents.slabCnt_ne (represents : Represents geometry state allocator out)
    (room : allocator.slabCnt < mpSlabsMax) :
    state.mp.mpSlabCnt ≠ UInt64.ofNat mpSlabsMax := by
  intro word
  have equal := congrArg UInt64.toNat word
  rw [represents.count] at equal
  exact absurd (equal.trans (by decide)) (Nat.ne_of_lt room)

theorem argoMemPoolGet_grow (represents : Represents geometry state allocator out)
    (free : allocator.free = []) (room : allocator.slabCnt < mpSlabsMax)
    {allocation : Allocation} (fresh : state.heap allocation.block = none) :
    ∃ result state', argoMemPoolGet (some allocation) state = some (result, state') ∧
      GetEffect geometry (some allocation) allocator out state result state' := by
  have invalid := represents.head_invalid free
  have notFull := represents.slabCnt_ne room
  rcases mpCreateNewSlab_spec represents.toSlabTable represents.count represents.own
      represents.partition free room fresh with
    ⟨middle, created, middleRepresents, middleLayout, middleClient⟩
  rcases slabObjects_eq_cons geometry.nonempty allocator.slabCnt with ⟨rest, objects⟩
  have top : (allocator.addSlab geometry.cnt).free = (allocator.slabCnt, 0) :: rest := by
    simp [addSlab, objects, free]
  rcases argoMemPoolUnlink_spec middleRepresents top with
    ⟨addr, state', valid, unlinked, address, represents', layout, client⟩
  have slabs : state'.mp.slabs = middle.mp.slabs := congrArg Layout.slabs layout
  have abstract : allocator.get geometry.cnt mpSlabsMax true =
      (some (allocator.slabCnt, 0), { allocator.addSlab geometry.cnt with free := rest }) := by
    simp [StackAllocator.get, free, room, StackAllocator.pop, top]
  refine ⟨some addr, state', ?_, ?_, ?_, ?_, ?_, by simp⟩
  · simp [argoMemPoolGet, invalid, argoMemPoolExpand, notFull, created, unlinked]
  · simpa [abstract] using represents'
  · simp [abstract, slabs, address]
  · rw [layout, middleLayout]
    simp [Layout.afterGet, free, room]
  · intro pointer old
    rw [← represents.count] at middleLayout
    have kept := old.addSlab middleLayout (by
      rw [represents.count, middleRepresents.count]
      exact Nat.le_succ _) represents.fits middleRepresents.fits
    rw [client pointer kept, middleClient pointer old]

/-- `argo_mem_pool_get` never faults and acts as the abstract get. -/
theorem argoMemPoolGet_spec (represents : Represents geometry state allocator out)
    {outcome : Option Allocation} (fresh : Fresh state.heap outcome) :
    ∃ result state', argoMemPoolGet outcome state = some (result, state') ∧
      GetEffect geometry outcome allocator out state result state' := by
  cases free : allocator.free with
  | cons object rest => exact argoMemPoolGet_pop represents free outcome
  | nil =>
      have invalid := represents.head_invalid free
      have bounded : allocator.slabCnt ≤ mpSlabsMax := represents.count ▸ represents.bounded
      rcases Nat.lt_or_eq_of_le bounded with room | full
      · cases outcome with
        | none =>
            have failed := mpCreateNewSlab_none represents.toSlabTable (represents.count ▸ room)
            have notFull := represents.slabCnt_ne room
            refine ⟨none, state, ?_, .of_failure represents free (by simp)⟩
            simp [argoMemPoolGet, invalid, argoMemPoolExpand, notFull, failed]
        | some allocation =>
            exact argoMemPoolGet_grow represents free room (fresh allocation rfl)
      · have word : state.mp.mpSlabCnt = UInt64.ofNat mpSlabsMax := by
          apply UInt64.toNat_inj.mp
          rw [represents.count, full]
          decide
        refine ⟨none, state, ?_, .of_failure represents free (by omega)⟩
        simp [argoMemPoolGet, invalid, argoMemPoolExpand, word]

end Grow

end Tpt.MemPool
