import Tpt.MemPool.Refinement

/-!
# Correctness of whole runs

From creation on, in every order of gets and puts and with any allocation
failing, no object is lost or handed out twice, and the pool returns what the
stack allocator returns.
-/

namespace Tpt.MemPool

open Memory StackAllocator

def addressAt (slabs : Fin mpSlabsMax → Option Nat) (position : Position) : Option Ptr :=
  (slabBlock slabs position.1).map fun block => ⟨block, position.2 + mpMetadataSz⟩

/-- Following the metadata words from `mp_free_next` reaches an end marker
after visiting `free`; these positions and those of the outstanding addresses
are, without repetition, the positions of all objects of the slabs in use. -/
def Partitioned (history : List Event) (state : PoolState) : Prop :=
  ∃ free out : List Position,
    Chain linkTarget (metadataAt state.mp.slabs state.heap) state.mp.mpFreeNext free ∧
    List.Forall₂ (fun position addr => addressAt state.mp.slabs position = some addr)
      out (outstanding history) ∧
    (free ++ out).Nodup ∧
    ∀ slab offset, (slab, offset) ∈ free ++ out ↔
      slab < state.mp.mpSlabCnt.toNat ∧
        ∃ index < state.mp.mpObjCnt.toNat, offset = index * state.mp.mpObjSz.toNat

theorem Simulated.partitioned {geometry : Geometry} {history : List Event} {state : PoolState}
    {calls : List Call} {out : List Object}
    (simulated : Simulated geometry history state calls out) : Partitioned history state := by
  have represents := simulated.represents
  refine ⟨(run geometry.cnt mpSlabsMax calls).1.free.map (place geometry),
    out.map (place geometry), represents.chain, ?_, ?_, ?_⟩
  · rw [List.forall₂_map_left_iff]
    exact simulated.held
  · rw [← List.map_append]
    exact represents.partition.nodup.map (place_injective geometry)
  · intro slab offset
    rw [← List.map_append, List.mem_map, represents.fits.1, represents.fits.2, represents.count]
    constructor
    · rintro ⟨object, membership, placed⟩
      obtain ⟨rfl, rfl⟩ := Prod.mk.inj placed
      have covered := (represents.partition.covers object).mp membership
      exact ⟨covered.1, object.2, covered.2, rfl⟩
    · rintro ⟨inUse, index, inSlab, rfl⟩
      exact ⟨(slab, index), (represents.partition.covers _).mpr ⟨inUse, inSlab⟩, rfl⟩

theorem Simulated.outstanding_nodup {geometry : Geometry} {history : List Event}
    {state : PoolState} {calls : List Call} {out : List Object}
    (simulated : Simulated geometry history state calls out) : (outstanding history).Nodup :=
  (List.rel_nodup simulated.represents.names_biUnique simulated.held).mp
    simulated.represents.partition.nodup.of_append_right

/-- The pool after `history` is where the stack allocator is after the same
calls, and it returned the same results.  A get that returns `NULL` changes
nothing, no call faults, and there are just enough slabs for the peak. -/
structure MatchesStack (sz cnt : Nat) (history : List Event) (state : PoolState) : Prop where
  simulates : ∃ calls,
    List.Forall₂ (CallOf (Names sz state.mp.slabs)) (withoutWrites history) calls ∧
    List.Forall₂ (Option.Rel (Names sz state.mp.slabs))
      (run cnt mpSlabsMax calls).2 (results history) ∧
    Chain linkTarget (metadataAt state.mp.slabs state.heap) state.mp.mpFreeNext
      ((run cnt mpSlabsMax calls).1.free.map fun object => (object.1, object.2 * sz)) ∧
    state.mp.mpSlabCnt.toNat = (run cnt mpSlabsMax calls).1.slabCnt
  getReturns : ∀ outcome, Fresh state.heap outcome → ∃ result state',
    argoMemPoolGet outcome state = some (result, state') ∧ (result = none → state' = state)
  putReturns : ∀ addr ∈ outstanding history, ∃ state', argoMemPoolPut addr state = some state'
  slabCnt_eq : state.mp.mpSlabCnt.toNat = max 1 ((peak history + cnt - 1) / cnt)

/-- With memory for the pool and its first slab, creation succeeds and every
run of the pool matches the stack allocator. -/
def RefinesStack (objSz objCnt : UInt32) : Prop :=
  ∀ heap mpAllocation slabAllocation,
    CreateFresh heap (some mpAllocation) (some slabAllocation) →
    ∃ heap' mp, argoMemPoolCreate objSz objCnt (some mpAllocation) (some slabAllocation) heap =
        some (heap', some mp) ∧
      ∀ history state, Run { heap := heap', mp } history state →
        MatchesStack mp.mpObjSz.toNat mp.mpObjCnt.toNat history state

theorem Simulated.putReturns {geometry : Geometry} {history : List Event} {state : PoolState}
    {calls : List Call} {out : List Object}
    (simulated : Simulated geometry history state calls out) :
    ∀ addr ∈ outstanding history, ∃ state', argoMemPoolPut addr state = some state' := by
  intro addr membership
  rcases simulated.object_of_addr membership with ⟨object, held, named⟩
  rcases argoMemPoolPut_spec simulated.represents held named with ⟨state', done, _⟩
  exact ⟨state', done⟩

theorem Simulated.matchesStack {geometry : Geometry} {history : List Event} {state : PoolState}
    {calls : List Call} {out : List Object}
    (simulated : Simulated geometry history state calls out) :
    MatchesStack geometry.sz geometry.cnt history state := by
  have count := simulated.represents.count
  refine ⟨⟨calls, simulated.called, simulated.returned, simulated.represents.chain, count⟩,
    ?_, simulated.putReturns, ?_⟩
  · intro outcome available
    rcases argoMemPoolGet_spec simulated.represents available with ⟨result, state', got, effect⟩
    exact ⟨result, state', got, effect.failed⟩
  · rw [count]
    exact simulated.sized.slabCnt_eq simulated.positive geometry.nonempty

def Geometry.ofPool (mp : ArgoMemPool) (aligned : 8 ∣ mp.mpObjSz.toNat)
    (holdsMetadata : 8 ≤ mp.mpObjSz.toNat) (nonempty : 1 ≤ mp.mpObjCnt.toNat)
    (capped : mp.mpObjSz.toNat * mp.mpObjCnt.toNat ≤ 2 ^ 28) : Geometry :=
  { sz := mp.mpObjSz.toNat, cnt := mp.mpObjCnt.toNat, aligned, holdsMetadata, nonempty, capped }

/-- In every reachable state the objects are partitioned into free and
outstanding ones; no call faults, and a get never returns an address that is
still outstanding. -/
theorem free_and_outstanding_partition {objSz objCnt : UInt32}
    {mpOutcome slabOutcome : Option Allocation} {heap heap' : Heap} {mp : ArgoMemPool}
    (fresh : CreateFresh heap mpOutcome slabOutcome)
    (created : argoMemPoolCreate objSz objCnt mpOutcome slabOutcome heap =
      some (heap', some mp))
    (aligned : 8 ∣ mp.mpObjSz.toNat) (holdsMetadata : 8 ≤ mp.mpObjSz.toNat)
    (nonempty : 1 ≤ mp.mpObjCnt.toNat)
    (capped : mp.mpObjSz.toNat * mp.mpObjCnt.toNat ≤ 2 ^ 28)
    {history : List Event} {state : PoolState}
    (run : Run { heap := heap', mp } history state) :
    Partitioned history state ∧
      (outstanding history).Nodup ∧
      (∀ outcome, Fresh state.heap outcome → ∃ result state',
        argoMemPoolGet outcome state = some (result, state') ∧
          ∀ addr, result = some addr → addr ∉ outstanding history) ∧
      ∀ addr ∈ outstanding history, ∃ state', argoMemPoolPut addr state = some state' := by
  let geometry := Geometry.ofPool mp aligned holdsMetadata nonempty capped
  have represents := Represents.of_create geometry fresh created ⟨rfl, rfl⟩
  obtain ⟨calls, out, simulated⟩ := run.simulated represents
  refine ⟨simulated.partitioned, simulated.outstanding_nodup, ?_, ?_⟩
  · intro outcome available
    rcases argoMemPoolGet_spec simulated.represents available with ⟨result, state', got, _⟩
    refine ⟨result, state', got, ?_⟩
    rintro addr rfl
    rcases (Run.get run available got).simulated represents with ⟨_, _, after⟩
    exact (List.nodup_cons.mp after.outstanding_nodup).1
  · exact simulated.putReturns

/-- A pool of two 8-byte objects after one get. -/
theorem partition_after_one_get :
    ∃ heap' mp addr state, argoMemPoolCreate 8 2 (some ⟨0, fun _ => 0⟩) (some ⟨1, fun _ => 0⟩)
        (fun _ => none) = some (heap', some mp) ∧
      Run { heap := heap', mp } [.get none (some addr)] state ∧
      Partitioned [.get none (some addr)] state := by
  have fresh := createFresh_of_empty (fun _ => 0) fun _ => 0
  rcases exists_first_get ⟨16, 2, by decide, by decide, by decide, by decide⟩
      (show (mpAdjustSizeAndCount 8 2).1.toNat = 16 by decide) (by decide) fresh with
    ⟨heap', mp, addr, state, created, ⟨size, count⟩, run⟩
  exact ⟨heap', mp, addr, state, created, run,
    (free_and_outstanding_partition fresh created (by rw [size]; decide)
      (by rw [size]; decide) (by rw [count]; decide) (by rw [size, count]; decide) run).1⟩

theorem mpFreeListInit_empty_block {heap : Heap} {block : Nat} {contents : Block}
    (live : heap block = some contents) (size : contents.size = 0)
    (objSz objCnt : UInt32) (slabInx : UInt64) :
    mpFreeListInit ⟨block, 0⟩ objSz objCnt slabInx heap = none := by
  have noStore : ∀ value, heap.store64 ⟨block, 0⟩ value = none := by
    intro value
    simp [Heap.store64, live, size]
  simp only [mpFreeListInit]
  cases (objCnt - 1).toNat with
  | zero => simp [mpFreeListInitLoop, noStore]
  | succ iterations => simp [mpFreeListInitLoop, noStore]

/-- An object size that wraps to zero makes creation write outside its slab. -/
theorem argoMemPoolCreate_zero {objSz objCnt : UInt32}
    (zero : (mpAdjustSizeAndCount objSz objCnt).1 = 0) (heap : Heap)
    (mpAllocation slabAllocation : Allocation) :
    argoMemPoolCreate objSz objCnt (some mpAllocation) (some slabAllocation) heap = none := by
  have faults := mpFreeListInit_empty_block
    (Heap.allocate_self (heap.allocate mpAllocation.block sizeofArgoMemPool mpAllocation.bytes)
      slabAllocation.block 0 slabAllocation.bytes) rfl 0 (mpAdjustSizeAndCount objSz objCnt).2 0
  simp [argoMemPoolCreate, mpCreateNewSlab, zeroedPool, mpSlabBytes, zero, faults]

/-- For a geometry within the slab cap, the pool refines the stack allocator
exactly when the object size did not wrap to zero.  The adjusted size is a
multiple of eight in any case. -/
theorem refinesStack_iff {objSz objCnt : UInt32}
    (nonempty : 1 ≤ (mpAdjustSizeAndCount objSz objCnt).2.toNat)
    (capped : (mpAdjustSizeAndCount objSz objCnt).1.toNat *
      (mpAdjustSizeAndCount objSz objCnt).2.toNat ≤ 2 ^ 28) :
    RefinesStack objSz objCnt ↔ (mpAdjustSizeAndCount objSz objCnt).1 ≠ 0 := by
  constructor
  · intro refines zero
    rcases refines _ _ _ (createFresh_of_empty (fun _ => 0) fun _ => 0) with ⟨_, _, created, _⟩
    rw [argoMemPoolCreate_zero zero] at created
    contradiction
  · intro nonzero heap mpAllocation slabAllocation fresh
    have size := adjusted_sz_toNat objSz objCnt
    have positive : (mpAdjustSizeAndCount objSz objCnt).1.toNat ≠ 0 := fun zero =>
      nonzero (UInt32.toNat_inj.mp (by simpa using zero))
    let geometry : Geometry :=
      { sz := (mpAdjustSizeAndCount objSz objCnt).1.toNat
        cnt := (mpAdjustSizeAndCount objSz objCnt).2.toNat
        aligned := by omega
        holdsMetadata := by omega
        nonempty
        capped }
    rcases argoMemPoolCreate_spec geometry rfl rfl fresh with ⟨heap', mp, created, represents⟩
    refine ⟨heap', mp, created, fun history state run => ?_⟩
    obtain ⟨calls, out, simulated⟩ := run.simulated represents
    have matched := simulated.matchesStack
    rw [← represents.fits.1, ← represents.fits.2] at matched
    exact matched

theorem refinesStack_eight_bytes : RefinesStack 8 4 :=
  (refinesStack_iff (by decide) (by decide)).mpr (by decide)

/-- An object size of `2 ^ 32 - 15` is adjusted to zero, a multiple of eight
within the cap, and the pool is not the stack allocator. -/
theorem not_refinesStack_of_wrapped_size :
    8 ∣ (mpAdjustSizeAndCount 4294967281 2).1.toNat ∧
      1 ≤ (mpAdjustSizeAndCount 4294967281 2).2.toNat ∧
      (mpAdjustSizeAndCount 4294967281 2).1.toNat *
        (mpAdjustSizeAndCount 4294967281 2).2.toNat ≤ 2 ^ 28 ∧
      ¬RefinesStack 4294967281 2 := by
  refine ⟨by decide, by decide, by decide, fun refines => ?_⟩
  rcases refines _ _ _ (createFresh_of_empty (fun _ => 0) fun _ => 0) with ⟨_, _, created, _⟩
  rw [argoMemPoolCreate_zero (by decide)] at created
  contradiction

end Tpt.MemPool
