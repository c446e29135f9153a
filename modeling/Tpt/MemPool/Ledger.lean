import Tpt.Lib.Trace
import Tpt.MemPool.Create
import Tpt.MemPool.Refinement

/-!
# The blocks a pool obtains and gives back

`argo_mem_pool_destroy` trusts the slab array and not the slab count.  The
invariant `Owned` ties the two to the memory: the slabs up to the count are
distinct blocks that were unused before the pool was created, and no other
block changed between live and unused.
-/

namespace Tpt.MemPool

open Memory

/-- A block that `ARGO_ALLOC` gave to the pool. -/
def Owns (mp : ArgoMemPool) (block : Nat) : Prop :=
  block = mp.self ∨ ∃ i, mp.slabs i = some block

/-- The pool was created in `heap` and its blocks are all that is new. -/
structure Owned (heap : Heap) (state : PoolState) : Prop where
  bounded : state.mp.mpSlabCnt.toNat ≤ mpSlabsMax
  used : ∀ i, state.mp.slabs i ≠ none ↔ i.val < state.mp.mpSlabCnt.toNat
  distinct : ∀ i j block, state.mp.slabs i = some block → state.mp.slabs j = some block → i = j
  apart : ∀ i, state.mp.slabs i ≠ some state.mp.self
  taken : ∀ block, Owns state.mp block → heap block = none ∧ state.heap block ≠ none
  others : ∀ block, ¬Owns state.mp block →
    (state.heap block).map Block.size = (heap block).map Block.size

/-- Two states of a pool that differ in memory contents and in the head of the
free list only. -/
structure SameBlocks (state state' : PoolState) : Prop where
  shape : state.heap.SameShape state'.heap
  self : state'.mp.self = state.mp.self
  slabs : state'.mp.slabs = state.mp.slabs
  slabCnt : state'.mp.mpSlabCnt = state.mp.mpSlabCnt

section Steps

variable {heap : Heap} {state state' : PoolState}

theorem Owned.of_sameBlocks (owned : Owned heap state) (same : SameBlocks state state') :
    Owned heap state' := by
  have owns : ∀ block, Owns state'.mp block ↔ Owns state.mp block := by
    intro block
    rw [Owns, Owns, same.self, same.slabs]
  refine ⟨?_, ?_, ?_, ?_, ?_, ?_⟩
  · rw [same.slabCnt]
    exact owned.bounded
  · rw [same.slabs, same.slabCnt]
    exact owned.used
  · rw [same.slabs]
    exact owned.distinct
  · rw [same.slabs, same.self]
    exact owned.apart
  · intro block member
    have taken := owned.taken block ((owns block).mp member)
    exact ⟨taken.1, same.shape.ne_none taken.2⟩
  · intro block outside
    rw [same.shape block]
    exact owned.others block fun member => outside ((owns block).mpr member)

theorem mpFreeListInitLoop_sameShape {objSz : UInt32} {slab : UInt64} {iterations : Nat}
    {addr addr' : Ptr} {nextFree : UInt64} {before after : Heap}
    (built : mpFreeListInitLoop objSz slab iterations addr nextFree before =
      some (addr', after)) : before.SameShape after := by
  induction iterations generalizing addr nextFree before with
  | zero =>
      simp only [mpFreeListInitLoop, Option.some.injEq, Prod.mk.injEq] at built
      obtain ⟨_, rfl⟩ := built
      exact .refl _
  | succ iterations inductionHypothesis =>
      simp only [mpFreeListInitLoop] at built
      split at built
      next => contradiction
      next stored => exact (Heap.store64_sameShape stored).trans (inductionHypothesis built)

theorem mpFreeListInit_sameShape {addr : Ptr} {objSz objCnt : UInt32} {slabInx : UInt64}
    {before after : Heap} (built : mpFreeListInit addr objSz objCnt slabInx before = some after) :
    before.SameShape after := by
  simp only [mpFreeListInit] at built
  split at built
  next => contradiction
  next looped =>
    exact (mpFreeListInitLoop_sameShape looped).trans (Heap.store64_sameShape built)

/-- A pool whose next slab is unused fails to create it and does not change, or
enters a new block in the table. -/
theorem mpCreateNewSlab_effect {outcome : Option Allocation} {ret : Int}
    (used : ∀ i, state.mp.slabs i ≠ none ↔ i.val < state.mp.mpSlabCnt.toNat)
    (created : mpCreateNewSlab outcome state = some (ret, state')) :
    (ret = 1 ∧ state' = state) ∨
      ∃ room allocation after, outcome = some allocation ∧ ret = 0 ∧
        (state.heap.allocate allocation.block (mpSlabBytes state.mp).toNat
          allocation.bytes).SameShape after ∧
        state' = state.withSlab room allocation.block after := by
  rcases mpCreateNewSlab_cases created with
    ⟨room, ⟨_, failed, rfl⟩ | ⟨allocation, after, allocated, zero, initialised, rfl⟩⟩
  · have unused : state.mp.slabs ⟨state.mp.mpSlabCnt.toNat, room⟩ = none := by
      by_contra occupied
      exact absurd ((used _).mp occupied) (lt_irrefl _)
    refine Or.inl ⟨failed, ?_⟩
    rw [← unused, Function.update_eq_self]
  · exact Or.inr ⟨room, allocation, after, allocated, zero,
      mpFreeListInit_sameShape initialised, rfl⟩

theorem withSlab_slabs (room : state.mp.mpSlabCnt.toNat < mpSlabsMax) (block : Nat)
    (after : Heap) (i : Fin mpSlabsMax) :
    (state.withSlab room block after).mp.slabs i =
      if i.val = state.mp.mpSlabCnt.toNat then some block else state.mp.slabs i := by
  simp [PoolState.withSlab, Function.update_apply, Fin.ext_iff]

theorem withSlab_used (room : state.mp.mpSlabCnt.toNat < mpSlabsMax)
    (used : ∀ i, state.mp.slabs i ≠ none ↔ i.val < state.mp.mpSlabCnt.toNat)
    (block : Nat) (after : Heap) (i : Fin mpSlabsMax) :
    (state.withSlab room block after).mp.slabs i ≠ none ↔
      i.val < (state.withSlab room block after).mp.mpSlabCnt.toNat := by
  rw [withSlab_slabs, withSlab_slabCnt]
  by_cases last : i.val = state.mp.mpSlabCnt.toNat
  · simp [last]
  · rw [if_neg last, used]
    omega

theorem owns_withSlab (room : state.mp.mpSlabCnt.toNat < mpSlabsMax)
    (used : ∀ i, state.mp.slabs i ≠ none ↔ i.val < state.mp.mpSlabCnt.toNat)
    (added : Nat) (after : Heap) (block : Nat) :
    Owns (state.withSlab room added after).mp block ↔ block = added ∨ Owns state.mp block := by
  constructor
  · rintro (isSelf | ⟨i, found⟩)
    · exact Or.inr (Or.inl isSelf)
    · rw [withSlab_slabs] at found
      split at found
      next => exact Or.inl (Option.some.inj found).symm
      next => exact Or.inr (Or.inr ⟨i, found⟩)
  · rintro (rfl | isSelf | ⟨i, found⟩)
    · refine Or.inr ⟨⟨state.mp.mpSlabCnt.toNat, room⟩, ?_⟩
      simp [withSlab_slabs]
    · exact Or.inl isSelf
    · refine Or.inr ⟨i, ?_⟩
      have older : i.val < state.mp.mpSlabCnt.toNat := (used i).mp (by simp [found])
      rw [withSlab_slabs, if_neg (Nat.ne_of_lt older), found]

/-- A block that is unused now was unused when the pool was created, and is
none of the pool's. -/
theorem Owned.unused (owned : Owned heap state) {block : Nat}
    (unused : state.heap block = none) : heap block = none ∧ ¬Owns state.mp block := by
  have outside : ¬Owns state.mp block := fun member => (owned.taken block member).2 unused
  have sizes := owned.others block outside
  rw [unused] at sizes
  exact ⟨by simpa using sizes.symm, outside⟩

theorem Owned.withSlab (owned : Owned heap state)
    (room : state.mp.mpSlabCnt.toNat < mpSlabsMax) {allocation : Allocation} {size : Nat}
    {after : Heap} (unused : state.heap allocation.block = none)
    (shape : (state.heap.allocate allocation.block size allocation.bytes).SameShape after) :
    Owned heap (state.withSlab room allocation.block after) := by
  obtain ⟨unusedBefore, outside⟩ := owned.unused unused
  have owns := owns_withSlab room owned.used allocation.block after
  refine ⟨?_, withSlab_used room owned.used _ _, ?_, ?_, ?_, ?_⟩
  · rw [withSlab_slabCnt]
    exact room
  · exact distinct_update owned.distinct _ fun i found => outside (Or.inr ⟨i, found⟩)
  · intro i
    rw [withSlab_slabs]
    split
    · intro isSelf
      exact outside (Or.inl (Option.some.inj isSelf))
    · exact owned.apart i
  · intro block member
    have live : state.heap.allocate allocation.block size allocation.bytes block ≠ none →
        after block ≠ none := shape.ne_none
    rcases (owns block).mp member with rfl | earlier
    · exact ⟨unusedBefore, live (by simp)⟩
    · have taken := owned.taken block earlier
      have different : block ≠ allocation.block := by
        rintro rfl
        exact outside earlier
      refine ⟨taken.1, live ?_⟩
      rw [Heap.allocate_of_ne _ _ _ different]
      exact taken.2
  · intro block foreign
    rw [owns, not_or] at foreign
    have sizes := shape block
    rw [Heap.allocate_of_ne _ _ _ foreign.1] at sizes
    exact sizes.trans (owned.others block foreign.2)

theorem Owned.createNewSlab (owned : Owned heap state) {outcome : Option Allocation} {ret : Int}
    (fresh : Fresh state.heap outcome)
    (created : mpCreateNewSlab outcome state = some (ret, state')) : Owned heap state' := by
  rcases mpCreateNewSlab_effect owned.used created with
    ⟨_, rfl⟩ | ⟨room, allocation, after, allocated, _, shape, rfl⟩
  · exact owned
  · exact owned.withSlab room (fresh allocation allocated) shape

theorem Owned.expand (owned : Owned heap state) {outcome : Option Allocation}
    {ret : Int} (fresh : Fresh state.heap outcome)
    (expanded : argoMemPoolExpand outcome state = some (ret, state')) : Owned heap state' := by
  simp only [argoMemPoolExpand] at expanded
  split at expanded
  · simp only [Option.some.injEq, Prod.mk.injEq] at expanded
    obtain ⟨_, rfl⟩ := expanded
    exact owned
  · split at expanded
    next => contradiction
    next created =>
      simp only [Option.some.injEq, Prod.mk.injEq] at expanded
      obtain ⟨_, rfl⟩ := expanded
      exact owned.createNewSlab fresh created

theorem argoMemPoolUnlink_sameBlocks {inx : UInt64} {offset : UInt32} {result : Option Ptr}
    (unlinked : argoMemPoolUnlink inx offset state = some (result, state')) :
    SameBlocks state state' := by
  simp only [argoMemPoolUnlink] at unlinked
  split at unlinked
  next => contradiction
  next =>
    split at unlinked
    next => contradiction
    next =>
      split at unlinked
      next => contradiction
      next stored =>
        simp only [Option.some.injEq, Prod.mk.injEq] at unlinked
        obtain ⟨_, rfl⟩ := unlinked
        exact ⟨Heap.store64_sameShape stored, rfl, rfl, rfl⟩

theorem argoMemPoolPut_sameBlocks {addr : Ptr}
    (done : argoMemPoolPut addr state = some state') : SameBlocks state state' := by
  simp only [argoMemPoolPut] at done
  split at done
  next =>
    split at done
    next => contradiction
    next =>
      split at done
      next => contradiction
      next stored =>
        obtain rfl := Option.some.inj done
        exact ⟨Heap.store64_sameShape stored, rfl, rfl, rfl⟩
  next => contradiction

theorem Owned.get (owned : Owned heap state) {outcome : Option Allocation}
    {result : Option Ptr} (fresh : Fresh state.heap outcome)
    (got : argoMemPoolGet outcome state = some (result, state')) : Owned heap state' := by
  simp only [argoMemPoolGet] at got
  split at got
  · split at got
    next => contradiction
    next expanded =>
      have grown := owned.expand fresh expanded
      split at got
      · simp only [Option.some.injEq, Prod.mk.injEq] at got
        obtain ⟨_, rfl⟩ := got
        exact grown
      · exact grown.of_sameBlocks (argoMemPoolUnlink_sameBlocks got)
  · exact owned.of_sameBlocks (argoMemPoolUnlink_sameBlocks got)

end Steps

section Destroy

variable {heap : Heap} {state : PoolState}

def ownedBlocks (mp : ArgoMemPool) : List Nat :=
  (List.finRange mpSlabsMax).filterMap mp.slabs ++ [mp.self]

theorem mem_ownedBlocks (mp : ArgoMemPool) (block : Nat) :
    block ∈ ownedBlocks mp ↔ Owns mp block := by
  simp [ownedBlocks, Owns, or_comm]

theorem argoMemPoolDestroyLoop_eq (slabs : Fin mpSlabsMax → Option Nat)
    (indices : List (Fin mpSlabsMax)) (before : Heap) :
    argoMemPoolDestroyLoop slabs indices before =
      (before.freeAll (indices.filterMap slabs)).map fun after =>
        (indices.filterMap slabs, after) := by
  induction indices generalizing before with
  | nil => rfl
  | cons i indices inductionHypothesis =>
      cases found : slabs i with
      | none => simp [argoMemPoolDestroyLoop, found, inductionHypothesis]
      | some block =>
          cases freed : before.free? block with
          | none => simp [argoMemPoolDestroyLoop, Heap.freeAll, found, freed]
          | some after =>
              simp only [argoMemPoolDestroyLoop, Heap.freeAll, List.filterMap_cons, found, freed,
                inductionHypothesis, Option.bind_some]
              cases after.freeAll (indices.filterMap slabs) <;> rfl

theorem argoMemPoolDestroy_eq (state : PoolState) :
    argoMemPoolDestroy state =
      (state.heap.freeAll (ownedBlocks state.mp)).map fun after =>
        (ownedBlocks state.mp, after) := by
  unfold argoMemPoolDestroy
  rw [argoMemPoolDestroyLoop_eq, ownedBlocks, Heap.freeAll_append]
  cases state.heap.freeAll ((List.finRange mpSlabsMax).filterMap state.mp.slabs) with
  | none => rfl
  | some after =>
      simp only [Option.map_some, Option.bind_some, Heap.freeAll]
      cases after.free? state.mp.self <;> rfl

theorem Owned.nodup_ownedBlocks (owned : Owned heap state) : (ownedBlocks state.mp).Nodup := by
  have slabs : ((List.finRange mpSlabsMax).filterMap state.mp.slabs).Nodup := by
    apply (List.nodup_finRange mpSlabsMax).filterMap
    intro i j block found found'
    exact owned.distinct i j block found found'
  apply slabs.append (List.nodup_singleton _)
  intro block member isSelf
  obtain ⟨i, _, found⟩ := List.mem_filterMap.mp member
  rw [List.mem_singleton.mp isSelf] at found
  exact owned.apart i found

theorem Owned.destroy (owned : Owned heap state) :
    argoMemPoolDestroy state = some (ownedBlocks state.mp, fun block =>
      if block ∈ ownedBlocks state.mp then none else state.heap block) := by
  have live : ∀ block ∈ ownedBlocks state.mp, state.heap block ≠ none := fun block member =>
    (owned.taken block ((mem_ownedBlocks _ _).mp member)).2
  rw [argoMemPoolDestroy_eq, Heap.freeAll_of_nodup owned.nodup_ownedBlocks live, Option.map_some]

/-- What the pool owns is what has been allocated since its creation. -/
theorem Owned.obtained (owned : Owned heap state) (block : Nat) :
    Owns state.mp block ↔ heap block = none ∧ state.heap block ≠ none := by
  constructor
  · exact owned.taken block
  · rintro ⟨unused, live⟩
    by_contra outside
    have sizes := owned.others block outside
    rw [unused, Option.map_none, Option.map_eq_none_iff] at sizes
    exact live sizes

end Destroy

section Runs

/-- A call of a client that stays outside the pool structure, or a write of its
own. -/
inductive PoolCall where
  | get (outcome : Option Allocation)
  | put (addr : Ptr)
  | write (pointer : Ptr) (byte : UInt8)

/-- `ARGO_ALLOC` returns unused blocks, and nobody else writes to the block of
the pool structure, whose fields the model keeps apart from its bytes.  Any
other address may be put, outstanding or not. -/
def PoolCall.Legal (state : PoolState) : PoolCall → Prop
  | .get outcome => Fresh state.heap outcome
  | .put addr => addr.block ≠ state.mp.self
  | .write pointer _ => pointer.block ≠ state.mp.self

def callPool (state : PoolState) : PoolCall → Option PoolState
  | .get outcome => (argoMemPoolGet outcome state).map Prod.snd
  | .put addr => argoMemPoolPut addr state
  | .write pointer byte => (state.heap.store8 pointer byte).map fun heap => { state with heap }

abbrev CallRun (start : PoolState) : List PoolCall → PoolState → Prop :=
  Trace (· = start) fun state call after => call.Legal state ∧ callPool state call = some after

variable {heap : Heap} {start state after : PoolState}

theorem Owned.call (owned : Owned heap state) {call : PoolCall} (legal : call.Legal state)
    (called : callPool state call = some after) : Owned heap after := by
  cases call with
  | get outcome =>
      obtain ⟨⟨result, state'⟩, got, rfl⟩ := Option.map_eq_some_iff.mp called
      exact owned.get legal got
  | put addr => exact owned.of_sameBlocks (argoMemPoolPut_sameBlocks called)
  | write pointer byte =>
      obtain ⟨written, stored, rfl⟩ := Option.map_eq_some_iff.mp called
      exact owned.of_sameBlocks ⟨Heap.store8_sameShape stored, rfl, rfl, rfl⟩

theorem Owned.run {history : List PoolCall} (owned : Owned heap start)
    (run : CallRun start history state) : Owned heap state := by
  apply run.invariant fun _ state => Owned heap state
  · rintro _ rfl
    exact owned
  · intro _ _ _ _ owned stepped
    exact owned.call stepped.1 stepped.2

theorem Owned.slab_ne_self (owned : Owned heap state) {slab block : Nat}
    (found : slabBlock state.mp.slabs slab = some block) : block ≠ state.mp.self := by
  unfold slabBlock at found
  split at found
  · rintro rfl
    exact owned.apart _ found
  · contradiction

def Event.call : Event → PoolCall
  | .get outcome _ => .get outcome
  | .put addr => .put addr
  | .write pointer byte => .write pointer byte

theorem Run.callRun {geometry : Geometry} {history : List Event}
    (represents : Represents geometry start (StackAllocator.initial geometry.cnt) [])
    (owned : Owned heap start) (run : Run start history state) :
    CallRun start (history.map Event.call) state := by
  induction run with
  | start => exact .start rfl
  | get _ fresh got inductionHypothesis =>
      refine .next inductionHypothesis ⟨fresh, ?_⟩
      simp [Event.call, callPool, got]
  | put before membership done inductionHypothesis =>
      rcases before.simulated represents with ⟨_, _, simulated⟩
      rcases simulated.object_of_addr membership with ⟨object, _, named⟩
      obtain ⟨block, found, rfl⟩ := Option.map_eq_some_iff.mp named
      exact .next inductionHypothesis ⟨(owned.run inductionHypothesis).slab_ne_self found, done⟩
  | write _ client stored inductionHypothesis =>
      rcases client with ⟨slab, _, found, _⟩
      refine .next inductionHypothesis ⟨(owned.run inductionHypothesis).slab_ne_self found, ?_⟩
      simp [Event.call, callPool, stored]

end Runs

section Create

variable {objSz objCnt : UInt32} {mpOutcome slabOutcome : Option Allocation}
  {heap heap' : Heap} {mp : ArgoMemPool}

theorem zeroedPool_owned {self : Nat} (unused : heap self = none) (size : Nat) (bytes : Bytes)
    (objSz objCnt : UInt32) :
    Owned heap { heap := heap.allocate self size bytes, mp := zeroedPool self objSz objCnt } := by
  have owns : ∀ block, Owns (zeroedPool self objSz objCnt) block ↔ block = self := by
    intro block
    simp [Owns, zeroedPool]
  refine ⟨?_, ?_, ?_, ?_, ?_, ?_⟩
  · simp [zeroedPool]
  · intro i
    simp [zeroedPool]
  · intro i j block found
    simp [zeroedPool] at found
  · intro i
    simp [zeroedPool]
  · intro block member
    obtain rfl := (owns block).mp member
    exact ⟨unused, by simp⟩
  · intro block outside
    have different : block ≠ self := fun isSelf => outside ((owns block).mpr isSelf)
    simp only [Heap.allocate_of_ne _ _ _ different]

/-- A creation that returns no pool has given back what it obtained. -/
theorem argoMemPoolCreate_failed (fresh : CreateFresh heap mpOutcome slabOutcome)
    (created : argoMemPoolCreate objSz objCnt mpOutcome slabOutcome heap = some (heap', none)) :
    heap' = heap := by
  rcases argoMemPoolCreate_cases created with
    ⟨_, same, _⟩ | ⟨allocation, ret, state, rfl, slabCreated, ⟨failed, freed, _⟩ | ⟨_, _, pool⟩⟩
  · exact same
  · have unused := fresh.1 allocation rfl
    rcases mpCreateNewSlab_effect (zeroedPool_owned unused _ _ _ _).used slabCreated with
      ⟨_, rfl⟩ | ⟨_, _, _, _, zero, _⟩
    · rw [freed]
      exact Heap.free_allocate unused _ _
    · exact absurd zero failed
  · contradiction

theorem Owned.of_create (fresh : CreateFresh heap mpOutcome slabOutcome)
    (created : argoMemPoolCreate objSz objCnt mpOutcome slabOutcome heap =
      some (heap', some mp)) : Owned heap { heap := heap', mp } := by
  rcases argoMemPoolCreate_cases created with
    ⟨_, _, nothing⟩ | ⟨allocation, _, _, rfl, slabCreated, ⟨_, _, nothing⟩ | ⟨_, rfl, pool⟩⟩
  · contradiction
  · contradiction
  · obtain rfl := Option.some.inj pool
    have empty := zeroedPool_owned (fresh.1 allocation rfl) sizeofArgoMemPool allocation.bytes
      (mpAdjustSizeAndCount objSz objCnt).1 (mpAdjustSizeAndCount objSz objCnt).2
    exact empty.createNewSlab (fresh.2 allocation rfl) slabCreated

theorem argoMemPoolCreate_returns (geometry : Geometry)
    (fresh : CreateFresh heap mpOutcome slabOutcome)
    (size : (mpAdjustSizeAndCount objSz objCnt).1.toNat = geometry.sz)
    (count : (mpAdjustSizeAndCount objSz objCnt).2.toNat = geometry.cnt) :
    ∃ result, argoMemPoolCreate objSz objCnt mpOutcome slabOutcome heap = some result := by
  by_cases failed : mpOutcome = none ∨ slabOutcome = none
  · rcases argoMemPoolCreate_none failed with ⟨heap', created⟩
    exact ⟨_, created⟩
  · rw [not_or] at failed
    obtain ⟨mpAllocation, rfl⟩ := Option.ne_none_iff_exists'.mp failed.1
    obtain ⟨slabAllocation, rfl⟩ := Option.ne_none_iff_exists'.mp failed.2
    rcases argoMemPoolCreate_spec geometry size count fresh with ⟨heap', mp, created, _⟩
    exact ⟨_, created⟩

end Create

/-- The books of a pool that was created in `heap`: its blocks are what has
been obtained since, and destroying it gives each of them back once. -/
structure Ledger (heap : Heap) (state : PoolState) : Prop extends Owned heap state where
  obtained : ∀ block, Owns state.mp block ↔ heap block = none ∧ state.heap block ≠ none
  destroyed : ∃ freed after, argoMemPoolDestroy state = some (freed, after) ∧
    freed.Nodup ∧ (∀ block, block ∈ freed ↔ Owns state.mp block) ∧
    (∀ block, after block = if block ∈ freed then none else state.heap block) ∧
    heap.SameShape after

theorem Owned.ledger {heap : Heap} {state : PoolState} (owned : Owned heap state) :
    Ledger heap state := by
  refine ⟨owned, owned.obtained, _, _, owned.destroy, owned.nodup_ownedBlocks,
    mem_ownedBlocks state.mp, fun _ => rfl, ?_⟩
  intro block
  by_cases member : block ∈ ownedBlocks state.mp
  · have taken := owned.taken block ((mem_ownedBlocks _ _).mp member)
    simp [member, taken.1]
  · have sizes := owned.others block fun owns => member ((mem_ownedBlocks _ _).mpr owns)
    simpa [member] using sizes

/-- A creation that fails keeps nothing.  One that succeeds starts runs in
which the books of the pool are in order, however the allocations go. -/
theorem pool_ledger {objSz objCnt : UInt32} {mpOutcome slabOutcome : Option Allocation}
    {heap : Heap} (fresh : CreateFresh heap mpOutcome slabOutcome) :
    (∀ geometry : Geometry, (mpAdjustSizeAndCount objSz objCnt).1.toNat = geometry.sz →
      (mpAdjustSizeAndCount objSz objCnt).2.toNat = geometry.cnt →
      ∃ result, argoMemPoolCreate objSz objCnt mpOutcome slabOutcome heap = some result) ∧
    (∀ heap', argoMemPoolCreate objSz objCnt mpOutcome slabOutcome heap = some (heap', none) →
      heap' = heap) ∧
    ∀ heap' mp, argoMemPoolCreate objSz objCnt mpOutcome slabOutcome heap =
        some (heap', some mp) →
      ∀ history state, CallRun { heap := heap', mp } history state → Ledger heap state := by
  refine ⟨?_, ?_, ?_⟩
  · intro geometry size count
    exact argoMemPoolCreate_returns geometry fresh size count
  · intro heap' created
    exact argoMemPoolCreate_failed fresh created
  · intro heap' mp created history state run
    exact ((Owned.of_create fresh created).run run).ledger

/-- A pool of two 8-byte objects after one get. -/
theorem pool_ledger_after_get :
    ∃ heap' mp history state, argoMemPoolCreate 8 2 (some ⟨0, fun _ => 0⟩)
        (some ⟨1, fun _ => 0⟩) (fun _ => none) = some (heap', some mp) ∧
      CallRun { heap := heap', mp } history state ∧ history.length = 1 ∧
      Ledger (fun _ => none) state := by
  let geometry : Geometry := ⟨16, 2, by decide, by decide, by decide, by decide⟩
  have fresh := createFresh_of_empty (fun _ => 0) fun _ => 0
  rcases exists_first_get geometry (show (mpAdjustSizeAndCount 8 2).1.toNat = 16 by decide)
      (by decide) fresh with ⟨heap', mp, addr, state, created, fits, run⟩
  have calls := run.callRun (.of_create geometry fresh created fits) (.of_create fresh created)
  exact ⟨heap', mp, _, state, created, calls, rfl,
    (pool_ledger fresh).2.2 heap' mp created _ state calls⟩

end Tpt.MemPool
