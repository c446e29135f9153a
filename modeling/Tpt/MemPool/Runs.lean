import Tpt.MemPool.Growth

/-!
# Runs of a pool

A history lists what happened to a pool since its creation, the last event
first: gets with what they returned, puts of outstanding addresses, and client
writes to slab bytes outside the metadata words.
-/

namespace Tpt.MemPool

open Memory StackAllocator

inductive Event where
  | get (outcome : Option Allocation) (result : Option Ptr)
  | put (addr : Ptr)
  | write (pointer : Ptr) (byte : UInt8)

/-- The addresses handed out and not put back, the last one first. -/
def outstanding : List Event → List Ptr
  | [] => []
  | .get _ (some addr) :: history => addr :: outstanding history
  | .get _ none :: history => outstanding history
  | .put addr :: history => (outstanding history).erase addr
  | .write _ _ :: history => outstanding history

def peak : List Event → Nat
  | [] => 0
  | event :: history => max (peak history) (outstanding (event :: history)).length

def results : List Event → List (Option Ptr)
  | [] => []
  | .get _ result :: history => result :: results history
  | .put _ :: history => results history
  | .write _ _ :: history => results history

def withoutWrites : List Event → List Event
  | [] => []
  | .get outcome result :: history => .get outcome result :: withoutWrites history
  | .put addr :: history => .put addr :: withoutWrites history
  | .write _ _ :: history => withoutWrites history

inductive Run (start : PoolState) : List Event → PoolState → Prop where
  | start : Run start [] start
  | get {history state outcome result state'} :
      Run start history state →
      Fresh state.heap outcome →
      argoMemPoolGet outcome state = some (result, state') →
      Run start (.get outcome result :: history) state'
  | put {history state addr state'} :
      Run start history state →
      addr ∈ outstanding history →
      argoMemPoolPut addr state = some state' →
      Run start (.put addr :: history) state'
  | write {history state pointer byte heap} :
      Run start history state →
      ClientByte state pointer →
      state.heap.store8 pointer byte = some heap →
      Run start (.write pointer byte :: history) { state with heap := heap }

def CreateFresh (heap : Heap) (mpOutcome slabOutcome : Option Allocation) : Prop :=
  Fresh heap mpOutcome ∧ ∀ allocation, mpOutcome = some allocation →
    Fresh (heap.allocate allocation.block sizeofArgoMemPool allocation.bytes) slabOutcome

theorem createFresh_of_empty (mpBytes slabBytes : Bytes) :
    CreateFresh (fun _ => none) (some ⟨0, mpBytes⟩) (some ⟨1, slabBytes⟩) := by
  simp [CreateFresh, Fresh, Heap.allocate]

theorem zeroedPool_slabTable (geometry : Geometry) (heap : Heap) {self : Nat}
    {objSz objCnt : UInt32} (fits : geometry.Fits (zeroedPool self objSz objCnt)) :
    SlabTable geometry { heap, mp := zeroedPool self objSz objCnt } := by
  have empty : ∀ slab, slabBlock (zeroedPool self objSz objCnt).slabs slab = none := by
    simp [slabBlock, zeroedPool]
  refine ⟨fits, by simp [zeroedPool], ?_, fun slab _ => empty slab, ?_⟩
  · intro slab inUse
    simp [zeroedPool] at inUse
  · intro slab other block found
    rw [empty] at found
    contradiction

/-- With memory available, `argo_mem_pool_create` makes a pool whose one slab
is free. -/
theorem argoMemPoolCreate_spec (geometry : Geometry) {objSz objCnt : UInt32}
    (size : (mpAdjustSizeAndCount objSz objCnt).1.toNat = geometry.sz)
    (count : (mpAdjustSizeAndCount objSz objCnt).2.toNat = geometry.cnt)
    {heap : Heap} {mpAllocation slabAllocation : Allocation}
    (fresh : CreateFresh heap (some mpAllocation) (some slabAllocation)) :
    ∃ heap' mp, argoMemPoolCreate objSz objCnt (some mpAllocation) (some slabAllocation) heap =
        some (heap', some mp) ∧
      Represents geometry { heap := heap', mp } (initial geometry.cnt) [] := by
  have fits : geometry.Fits (zeroedPool mpAllocation.block
      (mpAdjustSizeAndCount objSz objCnt).1 (mpAdjustSizeAndCount objSz objCnt).2) :=
    ⟨size, count⟩
  have nothing : Partition geometry.cnt { free := [], slabCnt := 0 } [] := ⟨by simp, by simp⟩
  have slabCnt : (0 : UInt64).toNat = ({ free := [], slabCnt := 0 } : StackAllocator).slabCnt := rfl
  rcases mpCreateNewSlab_spec (zeroedPool_slabTable geometry
      (heap.allocate mpAllocation.block sizeofArgoMemPool mpAllocation.bytes) fits) slabCnt
      (fun object membership => by simp at membership) nothing rfl (by simp)
      (fresh.2 mpAllocation rfl slabAllocation rfl) with ⟨state, created, represents, _, _⟩
  refine ⟨state.heap, state.mp, ?_, represents⟩
  simp [argoMemPoolCreate, created]

theorem mpCreateNewSlab_cases {outcome : Option Allocation} {state state' : PoolState} {ret : Int}
    (created : mpCreateNewSlab outcome state = some (ret, state')) :
    ∃ room : state.mp.mpSlabCnt.toNat < mpSlabsMax,
      (outcome = none ∧ ret = 1 ∧ state' = { state with
        mp := { state.mp with
          slabs := Function.update state.mp.slabs ⟨state.mp.mpSlabCnt.toNat, room⟩ none } }) ∨
      ∃ allocation heap, outcome = some allocation ∧ ret = 0 ∧
        mpFreeListInit ⟨allocation.block, 0⟩ state.mp.mpObjSz state.mp.mpObjCnt
          state.mp.mpSlabCnt (state.heap.allocate allocation.block (mpSlabBytes state.mp).toNat
            allocation.bytes) = some heap ∧
        state' = state.withSlab room allocation.block heap := by
  simp only [mpCreateNewSlab] at created
  split at created
  next room =>
    refine ⟨room, ?_⟩
    cases outcome with
    | none =>
        simp only [Option.some.injEq, Prod.mk.injEq] at created
        obtain ⟨rfl, rfl⟩ := created
        exact Or.inl ⟨rfl, rfl, rfl⟩
    | some allocation =>
        simp only at created
        split at created
        next => contradiction
        next heap initialised =>
          simp only [Option.some.injEq, Prod.mk.injEq] at created
          obtain ⟨rfl, rfl⟩ := created
          exact Or.inr ⟨allocation, heap, rfl, rfl, initialised, rfl⟩
  next => contradiction

theorem mpCreateNewSlab_some {outcome : Option Allocation} {state state' : PoolState} {ret : Int}
    (created : mpCreateNewSlab outcome state = some (ret, state')) :
    state'.mp.mpObjSz = state.mp.mpObjSz ∧ state'.mp.mpObjCnt = state.mp.mpObjCnt ∧
      (ret = 0 ↔ outcome.isSome = true) := by
  rcases mpCreateNewSlab_cases created with
    ⟨_, ⟨rfl, rfl, rfl⟩ | ⟨_, _, rfl, rfl, _, rfl⟩⟩
  · exact ⟨rfl, rfl, by simp⟩
  · exact ⟨rfl, rfl, by simp⟩

theorem argoMemPoolCreate_cases {objSz objCnt : UInt32}
    {mpOutcome slabOutcome : Option Allocation} {heap heap' : Heap} {pool : Option ArgoMemPool}
    (created : argoMemPoolCreate objSz objCnt mpOutcome slabOutcome heap = some (heap', pool)) :
    (mpOutcome = none ∧ heap' = heap ∧ pool = none) ∨
      ∃ allocation ret state, mpOutcome = some allocation ∧
        mpCreateNewSlab slabOutcome
          { heap := heap.allocate allocation.block sizeofArgoMemPool allocation.bytes
            mp := zeroedPool allocation.block (mpAdjustSizeAndCount objSz objCnt).1
              (mpAdjustSizeAndCount objSz objCnt).2 } = some (ret, state) ∧
        ((ret ≠ 0 ∧ heap' = state.heap.free allocation.block ∧ pool = none) ∨
          (ret = 0 ∧ heap' = state.heap ∧ pool = some state.mp)) := by
  cases mpOutcome with
  | none =>
      simp only [argoMemPoolCreate, Option.some.injEq, Prod.mk.injEq] at created
      exact Or.inl ⟨rfl, created.1.symm, created.2.symm⟩
  | some allocation =>
      simp only [argoMemPoolCreate] at created
      split at created
      next => contradiction
      next ret state slabCreated =>
        refine Or.inr ⟨allocation, ret, state, rfl, slabCreated, ?_⟩
        split at created
        next failed =>
          simp only [Option.some.injEq, Prod.mk.injEq] at created
          exact Or.inl ⟨failed, created.1.symm, created.2.symm⟩
        next zero =>
          simp only [Option.some.injEq, Prod.mk.injEq] at created
          exact Or.inr ⟨not_not.mp zero, created.1.symm, created.2.symm⟩

theorem argoMemPoolCreate_some {objSz objCnt : UInt32}
    {mpOutcome slabOutcome : Option Allocation} {heap heap' : Heap} {mp : ArgoMemPool}
    (created : argoMemPoolCreate objSz objCnt mpOutcome slabOutcome heap =
      some (heap', some mp)) :
    mp.mpObjSz = (mpAdjustSizeAndCount objSz objCnt).1 ∧
      mp.mpObjCnt = (mpAdjustSizeAndCount objSz objCnt).2 ∧
      mpOutcome.isSome = true ∧ slabOutcome.isSome = true := by
  rcases argoMemPoolCreate_cases created with
    ⟨_, _, nothing⟩ | ⟨_, _, _, rfl, slabCreated, ⟨_, _, nothing⟩ | ⟨zero, _, pool⟩⟩
  · contradiction
  · contradiction
  · have slab := mpCreateNewSlab_some slabCreated
    obtain rfl := Option.some.inj pool
    exact ⟨slab.1, slab.2.1, rfl, slab.2.2.mp zero⟩

theorem Represents.of_create (geometry : Geometry) {objSz objCnt : UInt32}
    {mpOutcome slabOutcome : Option Allocation} {heap heap' : Heap} {mp : ArgoMemPool}
    (fresh : CreateFresh heap mpOutcome slabOutcome)
    (created : argoMemPoolCreate objSz objCnt mpOutcome slabOutcome heap =
      some (heap', some mp))
    (fits : geometry.Fits mp) :
    Represents geometry { heap := heap', mp } (initial geometry.cnt) [] := by
  rcases argoMemPoolCreate_some created with ⟨size, count, mpSome, slabSome⟩
  obtain ⟨mpAllocation, rfl⟩ := Option.isSome_iff_exists.mp mpSome
  obtain ⟨slabAllocation, rfl⟩ := Option.isSome_iff_exists.mp slabSome
  rcases argoMemPoolCreate_spec geometry (size ▸ fits.1) (count ▸ fits.2) fresh with
    ⟨heap'', mp', created', represents⟩
  rw [created] at created'
  simp only [Option.some.injEq, Prod.mk.injEq] at created'
  obtain ⟨rfl, rfl⟩ := created'
  exact represents

end Tpt.MemPool
