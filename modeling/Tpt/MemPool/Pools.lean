import Tpt.Lib.Locals
import Tpt.MemPool.Ledger

/-!
# Several pools in one memory

A program may have any number of pools at once, and uses memory of its own
beside them.  Each pool reads and writes its own blocks only, so whatever
happens to the others it remains its own stack allocator.
-/

namespace Tpt.MemPool

open Memory StackAllocator

universe u

structure Pools (Name : Type u) where
  heap : Heap
  pool : Name → Option ArgoMemPool

inductive PoolsEvent (Name : Type u) where
  | create (name : Name) (objSz objCnt : UInt32) (mpOutcome slabOutcome : Option Allocation)
  | call (name : Name) (event : Event)
  | destroy (name : Name)
  | foreign (block : Nat) (contents : Option Block)

section Calls

variable {heap : Heap} {history : List Event} {state state' : PoolState} {event : Event}

/-- One event of a pool whose past is `history`. -/
inductive Stepped (history : List Event) (state : PoolState) : Event → PoolState → Prop where
  | get {outcome result state'} :
      Fresh state.heap outcome →
      argoMemPoolGet outcome state = some (result, state') →
      Stepped history state (.get outcome result) state'
  | put {addr state'} :
      addr ∈ outstanding history →
      argoMemPoolPut addr state = some state' →
      Stepped history state (.put addr) state'
  | write {pointer byte heap} :
      ClientByte state pointer →
      state.heap.store8 pointer byte = some heap →
      Stepped history state (.write pointer byte) { state with heap := heap }

theorem Stepped.owned
    (stepped : Stepped history state event state') (owned : Owned heap state) :
    Owned heap state' := by
  cases stepped with
  | get fresh got => exact owned.get fresh got
  | put _ done => exact owned.of_sameBlocks (argoMemPoolPut_sameBlocks done)
  | write _ stored => exact owned.of_sameBlocks ⟨Heap.store8_sameShape stored, rfl, rfl, rfl⟩

theorem Stepped.simulated
    {geometry : Geometry} {calls : List Call} {out : List Object}
    (stepped : Stepped history state event state')
    (simulated : Simulated geometry history state calls out) :
    ∃ calls out, Simulated geometry (event :: history) state' calls out := by
  cases stepped with
  | get fresh got =>
      obtain ⟨result, after, got', effect⟩ := argoMemPoolGet_spec simulated.represents fresh
      obtain ⟨rfl, rfl⟩ := Prod.mk.inj (Option.some.inj (got.symm.trans got'))
      exact ⟨_, simulated.get effect⟩
  | put member done =>
      obtain ⟨object, held, named⟩ := simulated.object_of_addr member
      obtain ⟨after, done', represents, layout, _⟩ :=
        argoMemPoolPut_spec simulated.represents held named
      obtain rfl := Option.some.inj (done.symm.trans done')
      exact ⟨_, _, simulated.put named represents (congrArg Layout.slabs layout)⟩
  | @write pointer byte written client stored =>
      obtain ⟨after, stored', represents, _⟩ := store8_spec simulated.represents client byte
      obtain rfl := Option.some.inj (stored.symm.trans stored')
      exact ⟨_, _, simulated.write represents rfl⟩

theorem owns_of_slabBlock
    {mp : ArgoMemPool} {slab block : Nat} (found : slabBlock mp.slabs slab = some block) :
    Owns mp block := by
  unfold slabBlock at found
  split at found
  · exact .inr ⟨_, found⟩
  · contradiction

theorem owns_of_outstanding
    {geometry : Geometry} {calls : List Call} {out : List Object} {addr : Ptr}
    (simulated : Simulated geometry history state calls out)
    (member : addr ∈ outstanding history) : Owns state.mp addr.block := by
  obtain ⟨object, _, named⟩ := simulated.object_of_addr member
  obtain ⟨block, found, rfl⟩ := Option.map_eq_some_iff.mp named
  exact owns_of_slabBlock found

end Calls

section Kept

variable {state state' : PoolState}

theorem mpFreeListInitLoop_others
    {objSz : UInt32} {slab : UInt64} {iterations : Nat} {addr addr' : Ptr} {nextFree : UInt64}
    {before after : Heap}
    (built : mpFreeListInitLoop objSz slab iterations addr nextFree before = some (addr', after)) :
    addr'.block = addr.block ∧ ∀ block, block ≠ addr.block → after block = before block := by
  induction iterations generalizing addr nextFree before with
  | zero =>
      simp only [mpFreeListInitLoop, Option.some.injEq, Prod.mk.injEq] at built
      obtain ⟨rfl, rfl⟩ := built
      exact ⟨rfl, fun _ _ => rfl⟩
  | succ iterations inductionHypothesis =>
      simp only [mpFreeListInitLoop] at built
      split at built
      · contradiction
      next stored =>
        obtain ⟨same, others⟩ := inductionHypothesis built
        refine ⟨same, fun block different => ?_⟩
        rw [others block different, Heap.store64_others stored block different]

theorem mpFreeListInit_others
    {addr : Ptr} {objSz objCnt : UInt32} {slabInx : UInt64} {before after : Heap}
    (built : mpFreeListInit addr objSz objCnt slabInx before = some after) {block : Nat}
    (different : block ≠ addr.block) : after block = before block := by
  simp only [mpFreeListInit] at built
  split at built
  · contradiction
  next looped =>
    obtain ⟨same, others⟩ := mpFreeListInitLoop_others looped
    rw [Heap.store64_others built block (same ▸ different), others block different]

/-- A call changes no block but those of the pool, and a block that becomes
one of them was unused. -/
structure Confined (heap heap' : Heap) (owned owned' : Nat → Prop) : Prop where
  kept : ∀ block, ¬owned block → ¬owned' block → heap' block = heap block
  grown : ∀ block, owned' block → owned block ∨ heap block = none

theorem mpCreateNewSlab_owns
    {outcome : Option Allocation} {ret : Int} {block : Nat}
    (used : ∀ i, state.mp.slabs i ≠ none ↔ i.val < state.mp.mpSlabCnt.toNat)
    (created : mpCreateNewSlab outcome state = some (ret, state'))
    (member : Owns state.mp block) : Owns state'.mp block := by
  rcases mpCreateNewSlab_effect used created with ⟨_, rfl⟩ | ⟨room, allocation, after, _, _, _, rfl⟩
  · exact member
  · exact (owns_withSlab room used allocation.block after block).mpr (.inr member)

theorem mpCreateNewSlab_confined
    {outcome : Option Allocation} {ret : Int}
    (used : ∀ i, state.mp.slabs i ≠ none ↔ i.val < state.mp.mpSlabCnt.toNat)
    (fresh : Fresh state.heap outcome)
    (created : mpCreateNewSlab outcome state = some (ret, state')) :
    Confined state.heap state'.heap (Owns state.mp) (Owns state'.mp) := by
  rcases mpCreateNewSlab_effect used created with
    ⟨_, rfl⟩ | ⟨room, allocation, after, rfl, _, _, rfl⟩
  · exact ⟨fun _ _ _ => rfl, fun _ owns => .inl owns⟩
  · have owns := owns_withSlab room used allocation.block after
    refine ⟨fun block _ outside => ?_, fun block member => ?_⟩
    · have different : block ≠ allocation.block := fun same =>
        outside ((owns block).mpr (.inl same))
      rcases mpCreateNewSlab_cases created with
        ⟨_, ⟨nothing, _⟩ | ⟨other, written, allocated, _, built, same⟩⟩
      · contradiction
      · obtain rfl := Option.some.inj allocated
        have heaps : after = written := congrArg PoolState.heap same
        rw [show (state.withSlab room _ after).heap = after from rfl, heaps,
          mpFreeListInit_others built different, Heap.allocate_of_ne _ _ _ different]
    · rcases (owns block).mp member with rfl | earlier
      · exact .inr (fresh allocation rfl)
      · exact .inl earlier

theorem argoMemPoolUnlink_confined
    {inx : UInt64} {offset : UInt32} {result : Option Ptr}
    (unlinked : argoMemPoolUnlink inx offset state = some (result, state')) :
    Confined state.heap state'.heap (Owns state.mp) (Owns state'.mp) := by
  have same := argoMemPoolUnlink_sameBlocks unlinked
  have owns : ∀ block, Owns state'.mp block → Owns state.mp block := by
    intro block member
    rwa [Owns, same.self, same.slabs] at member
  refine ⟨fun block outside _ => ?_, fun block member => .inl (owns block member)⟩
  simp only [argoMemPoolUnlink] at unlinked
  split at unlinked
  · contradiction
  next addr found =>
    split at unlinked
    · contradiction
    split at unlinked
    · contradiction
    next stored =>
      simp only [Option.some.injEq, Prod.mk.injEq] at unlinked
      obtain ⟨_, rfl⟩ := unlinked
      rw [mpInxAndOffsetToAddr_eq, Option.map_eq_some_iff] at found
      obtain ⟨slab, found, rfl⟩ := found
      have different : block ≠ slab := fun same => outside (same ▸ owns_of_slabBlock found)
      exact Heap.store64_others stored block different

theorem Confined.trans
    {first second third : Heap} {owned owned' owned'' : Nat → Prop}
    (left : Confined first second owned owned') (right : Confined second third owned' owned'')
    (more : ∀ block, owned' block → owned'' block) : Confined first third owned owned'' where
  kept block outside outside' := by
    have middle : ¬owned' block := fun member => outside' (more block member)
    rw [right.kept block middle outside', left.kept block outside middle]
  grown block member := by
    rcases right.grown block member with earlier | unused
    · exact left.grown block earlier
    · by_cases before : owned block
      · exact .inl before
      · by_cases middle : owned' block
        · exact left.grown block middle
        · exact .inr ((left.kept block before middle).symm.trans unused)

theorem argoMemPoolGet_confined
    {outcome : Option Allocation} {result : Option Ptr}
    (used : ∀ i, state.mp.slabs i ≠ none ↔ i.val < state.mp.mpSlabCnt.toNat)
    (fresh : Fresh state.heap outcome)
    (got : argoMemPoolGet outcome state = some (result, state')) :
    Confined state.heap state'.heap (Owns state.mp) (Owns state'.mp) := by
  simp only [argoMemPoolGet] at got
  split at got
  · split at got
    · contradiction
    next ret grown expanded =>
      have expansion : Confined state.heap grown.heap (Owns state.mp) (Owns grown.mp) := by
        simp only [argoMemPoolExpand] at expanded
        split at expanded
        · simp only [Option.some.injEq, Prod.mk.injEq] at expanded
          obtain ⟨_, rfl⟩ := expanded
          exact ⟨fun _ _ _ => rfl, fun _ owns => .inl owns⟩
        · split at expanded
          · contradiction
          next created =>
            simp only [Option.some.injEq, Prod.mk.injEq] at expanded
            obtain ⟨_, rfl⟩ := expanded
            exact mpCreateNewSlab_confined used fresh created
      split at got
      · simp only [Option.some.injEq, Prod.mk.injEq] at got
        obtain ⟨_, rfl⟩ := got
        exact expansion
      · have same := argoMemPoolUnlink_sameBlocks got
        refine expansion.trans (argoMemPoolUnlink_confined got) fun block member => ?_
        rwa [Owns, same.self, same.slabs]
  · exact argoMemPoolUnlink_confined got

theorem argoMemPoolCreate_confined
    {objSz objCnt : UInt32} {mpOutcome slabOutcome : Option Allocation} {heap heap' : Heap}
    {mp : ArgoMemPool} (fresh : CreateFresh heap mpOutcome slabOutcome)
    (created : argoMemPoolCreate objSz objCnt mpOutcome slabOutcome heap =
      some (heap', some mp)) : Confined heap heap' (fun _ => False) (Owns mp) := by
  rcases argoMemPoolCreate_cases created with
    ⟨_, _, nothing⟩ | ⟨allocation, _, _, rfl, slabCreated, ⟨_, _, nothing⟩ | ⟨_, rfl, pool⟩⟩
  · contradiction
  · contradiction
  obtain rfl := Option.some.inj pool
  have unused := fresh.1 allocation rfl
  have empty := zeroedPool_owned unused sizeofArgoMemPool allocation.bytes
    (mpAdjustSizeAndCount objSz objCnt).1 (mpAdjustSizeAndCount objSz objCnt).2
  have slab := mpCreateNewSlab_confined empty.used (fresh.2 allocation rfl) slabCreated
  have first : Confined heap
      (heap.allocate allocation.block sizeofArgoMemPool allocation.bytes) (fun _ => False)
      (Owns (zeroedPool allocation.block (mpAdjustSizeAndCount objSz objCnt).1
        (mpAdjustSizeAndCount objSz objCnt).2)) := by
    refine ⟨fun block _ outside => ?_, fun block member => .inr ?_⟩
    · exact Heap.allocate_of_ne _ _ _ fun same => outside (.inl same)
    · exact (empty.taken block member).1
  exact first.trans slab fun block member =>
    mpCreateNewSlab_owns empty.used slabCreated member

end Kept

theorem Stepped.confined
    {geometry : Geometry} {heap : Heap} {history : List Event} {state state' : PoolState}
    {event : Event} {calls : List Call} {out : List Object}
    (stepped : Stepped history state event state') (owned : Owned heap state)
    (simulated : Simulated geometry history state calls out) :
    Confined state.heap state'.heap (Owns state.mp) (Owns state'.mp) := by
  cases stepped with
  | get fresh got => exact argoMemPoolGet_confined owned.used fresh got
  | @put addr after member done =>
      have same := argoMemPoolPut_sameBlocks done
      have owns := owns_of_outstanding simulated member
      refine ⟨fun block outside _ => ?_, fun block within => .inl ?_⟩
      · have different : block ≠ addr.block := fun equal => outside (equal ▸ owns)
        simp only [argoMemPoolPut] at done
        split at done
        · split at done
          · contradiction
          split at done
          · contradiction
          next stored =>
            obtain rfl := Option.some.inj done
            exact Heap.store64_others stored block different
        · contradiction
      · rwa [Owns, same.self, same.slabs] at within
  | @write pointer byte written client stored =>
      obtain ⟨slab, _, found, _⟩ := client
      refine ⟨fun block outside _ => ?_, fun _ within => .inl within⟩
      have different : block ≠ pointer.block := fun equal =>
        outside (equal ▸ owns_of_slabBlock found)
      obtain ⟨contents, _, _, rfl⟩ := Heap.store8_eq_some_iff.mp stored
      exact Function.update_of_ne different _ _

/-- The pool stays where it is when its own blocks do not change. -/
theorem Owned.relocate
    {heap before after : Heap} {mp : ArgoMemPool} (owned : Owned heap { heap := before, mp })
    (same : ∀ block, Owns mp block → after block = before block) :
    ∃ heap, Owned heap { heap := after, mp } := by
  refine ⟨fun block => if block ∈ ownedBlocks mp then none else after block, owned.bounded,
    owned.used, owned.distinct, owned.apart, fun block member => ?_, fun block outside => ?_⟩
  · rw [if_pos ((mem_ownedBlocks mp block).mpr member)]
    refine ⟨rfl, ?_⟩
    rw [show ({ heap := after, mp } : PoolState).heap block = before block from same block member]
    exact (owned.taken block member).2
  · rw [if_neg fun member => outside ((mem_ownedBlocks mp block).mp member)]

theorem Represents.relocate
    {geometry : Geometry} {before after : Heap} {mp : ArgoMemPool} {allocator : StackAllocator}
    {out : List Object} (represents : Represents geometry { heap := before, mp } allocator out)
    (same : ∀ block, Owns mp block → after block = before block) :
    Represents geometry { heap := after, mp } allocator out := by
  have metadata : ∀ position, metadataAt mp.slabs after position =
      metadataAt mp.slabs before position := by
    intro position
    unfold metadataAt
    cases found : slabBlock mp.slabs position.1 with
    | none => rfl
    | some block => exact Heap.load64_eq_of_block (same block (owns_of_slabBlock found))
  refine ⟨⟨represents.fits, represents.bounded, ?_, represents.unused, represents.distinct⟩,
    represents.count, ?_, ?_, represents.partition⟩
  · intro slab inUse
    obtain ⟨block, contents, found, live, size⟩ := represents.live slab inUse
    exact ⟨block, contents, found, (same block (owns_of_slabBlock found)).trans live, size⟩
  · exact represents.chain.congr fun position _ => metadata position
  · intro object held
    exact (metadata _).trans (represents.own object held)

theorem Simulated.relocate
    {geometry : Geometry} {history : List Event} {before after : Heap} {mp : ArgoMemPool}
    {calls : List Call} {out : List Object}
    (simulated : Simulated geometry history { heap := before, mp } calls out)
    (same : ∀ block, Owns mp block → after block = before block) :
    Simulated geometry history { heap := after, mp } calls out :=
  { simulated with represents := simulated.represents.relocate same }

section Runs

variable {Name : Type u} [DecidableEq Name]

def since (name : Name) : List (PoolsEvent Name) → List Event
  | [] => []
  | .create other _ _ _ _ :: history => if other = name then [] else since name history
  | .call other event :: history =>
      if other = name then event :: since name history else since name history
  | .destroy other :: history => if other = name then [] else since name history
  | .foreign _ _ :: history => since name history

/-- The states after a history.  A call is one of the pool's own runs; the rest
of the program uses blocks that are no pool's. -/
inductive PoolsRun : List (PoolsEvent Name) → Pools Name → Prop where
  | start {heap} : PoolsRun [] { heap, pool := fun _ => none }
  | create {history pools name objSz objCnt mpOutcome slabOutcome heap pool} :
      PoolsRun history pools →
      pools.pool name = none →
      CreateFresh pools.heap mpOutcome slabOutcome →
      argoMemPoolCreate objSz objCnt mpOutcome slabOutcome pools.heap = some (heap, pool) →
      PoolsRun (.create name objSz objCnt mpOutcome slabOutcome :: history)
        { heap, pool := Function.update pools.pool name pool }
  | call {history pools name mp event after} :
      PoolsRun history pools →
      pools.pool name = some mp →
      Stepped (since name history) { heap := pools.heap, mp } event after →
      PoolsRun (.call name event :: history)
        { heap := after.heap, pool := Function.update pools.pool name (some after.mp) }
  | destroy {history pools name mp freed heap} :
      PoolsRun history pools →
      pools.pool name = some mp →
      argoMemPoolDestroy { heap := pools.heap, mp } = some (freed, heap) →
      PoolsRun (.destroy name :: history)
        { heap, pool := Function.update pools.pool name none }
  | foreign {history pools block contents} :
      PoolsRun history pools →
      (∀ name mp, pools.pool name = some mp → ¬Owns mp block) →
      PoolsRun (.foreign block contents :: history)
        { pools with heap := Function.update pools.heap block contents }

/-- The pools that were asked for are ones that can be created as asked. -/
def RequestsRepresentable (history : List (PoolsEvent Name)) : Prop :=
  ∀ name objSz objCnt mpOutcome slabOutcome,
    .create name objSz objCnt mpOutcome slabOutcome ∈ history → Representable objSz objCnt

def OwnedBy (pool : Option ArgoMemPool) (block : Nat) : Prop :=
  ∃ mp, pool = some mp ∧ Owns mp block

/-- Every pool has blocks of its own and simulates an allocator of its own. -/
structure Independent (history : List (PoolsEvent Name)) (pools : Pools Name) : Prop where
  owned : ∀ name mp, pools.pool name = some mp →
    ∃ heap, Owned heap { heap := pools.heap, mp }
  apart : ∀ name other block, name ≠ other → OwnedBy (pools.pool name) block →
    ¬OwnedBy (pools.pool other) block
  simulated : ∀ name mp, pools.pool name = some mp → ∃ geometry calls out,
    Simulated geometry (since name history) { heap := pools.heap, mp } calls out

variable {history : List (PoolsEvent Name)} {pools : Pools Name} {event : PoolsEvent Name}
variable {name : Name} {pool : Option ArgoMemPool} {heap : Heap}

namespace Independent

/-- One pool is created, changes or is destroyed, and the others stay. -/
theorem replace
    (independent : Independent history pools)
    (confined : Confined pools.heap heap (OwnedBy (pools.pool name)) (OwnedBy pool))
    (owned : ∀ mp, pool = some mp → ∃ before, Owned before { heap, mp })
    (simulated : ∀ mp, pool = some mp → ∃ geometry calls out,
      Simulated geometry (since name (event :: history)) { heap, mp } calls out)
    (elsewhere : ∀ other, other ≠ name → since other (event :: history) = since other history) :
    Independent (event :: history) { heap, pool := Function.update pools.pool name pool } := by
  have foreign : ∀ other mp block, other ≠ name → pools.pool other = some mp → Owns mp block →
      ¬OwnedBy (pools.pool name) block ∧ ¬OwnedBy pool block := by
    intro other mp block different found member
    have outside := independent.apart other name block different ⟨mp, found, member⟩
    refine ⟨outside, fun within => ?_⟩
    rcases confined.grown block within with earlier | unused
    · exact outside earlier
    · obtain ⟨before, owned⟩ := independent.owned other mp found
      exact (owned.taken block member).2 unused
  have same : ∀ other mp, other ≠ name → pools.pool other = some mp →
      ∀ block, Owns mp block → heap block = pools.heap block := by
    intro other mp different found block member
    obtain ⟨outside, outside'⟩ := foreign other mp block different found member
    exact confined.kept block outside outside'
  constructor
  case owned =>
    intro other mp found
    rcases update_cases found with ⟨rfl, now⟩ | ⟨different, before⟩
    · exact owned mp now
    · obtain ⟨_, stays⟩ := independent.owned other mp before
      exact stays.relocate (same other mp different before)
  case apart =>
    rintro first second block different ⟨mp, found, member⟩ ⟨mp', found', member'⟩
    rcases update_cases found with ⟨rfl, now⟩ | ⟨firstOther, before⟩
    · rcases update_cases found' with ⟨rfl, _⟩ | ⟨secondOther, before'⟩
      · exact different rfl
      · exact (foreign second mp' block secondOther before' member').2 ⟨mp, now, member⟩
    · rcases update_cases found' with ⟨rfl, now'⟩ | ⟨_, before'⟩
      · exact (foreign first mp block firstOther before member).2 ⟨mp', now', member'⟩
      · exact independent.apart first second block different ⟨mp, before, member⟩
          ⟨mp', before', member'⟩
  case simulated =>
    intro other mp found
    rcases update_cases found with ⟨rfl, now⟩ | ⟨different, before⟩
    · exact simulated mp now
    · obtain ⟨geometry, calls, out, stays⟩ := independent.simulated other mp before
      rw [elsewhere other different]
      exact ⟨geometry, calls, out, stays.relocate (same other mp different before)⟩

theorem start : Independent ([] : List (PoolsEvent Name)) { heap, pool := fun _ => none } where
  owned name mp found := by contradiction
  apart name other block different owned := by
    obtain ⟨mp, found, _⟩ := owned
    contradiction
  simulated name mp found := by contradiction

theorem create
    {objSz objCnt : UInt32} {mpOutcome slabOutcome : Option Allocation}
    (independent : Independent history pools) (unused : pools.pool name = none)
    (representable : Representable objSz objCnt)
    (fresh : CreateFresh pools.heap mpOutcome slabOutcome)
    (created : argoMemPoolCreate objSz objCnt mpOutcome slabOutcome pools.heap =
      some (heap, pool)) :
    Independent (.create name objSz objCnt mpOutcome slabOutcome :: history)
      { heap, pool := Function.update pools.pool name pool } := by
  have past : since name (.create name objSz objCnt mpOutcome slabOutcome :: history) = [] :=
    if_pos rfl
  refine independent.replace ?_ ?_ ?_ fun other different => if_neg (Ne.symm different)
  · have nobody : ∀ block, ¬OwnedBy (pools.pool name) block := by
      rintro block ⟨mp, found, _⟩
      rw [unused] at found
      contradiction
    cases pool with
    | none =>
        rw [argoMemPoolCreate_failed fresh created]
        refine ⟨fun _ _ _ => rfl, ?_⟩
        rintro block ⟨mp, found, _⟩
        contradiction
    | some mp =>
        have confined := argoMemPoolCreate_confined fresh created
        refine ⟨fun block _ outside => ?_, ?_⟩
        · exact confined.kept block id fun member => outside ⟨mp, rfl, member⟩
        · rintro block ⟨mp', same, member⟩
          obtain rfl := Option.some.inj same
          exact (confined.grown block member).imp False.elim id
  · rintro mp rfl
    exact ⟨_, Owned.of_create fresh created⟩
  · rintro mp rfl
    obtain ⟨geometry, size, count, _⟩ := representable.geometry
    obtain ⟨size', count', _, _⟩ := argoMemPoolCreate_some created
    have fits : geometry.Fits mp := ⟨size' ▸ size, count' ▸ count⟩
    rw [past]
    exact ⟨geometry, [], [], .start (.of_create geometry fresh created fits)⟩

theorem call
    {mp : ArgoMemPool} {step : Event} {after : PoolState}
    (independent : Independent history pools) (found : pools.pool name = some mp)
    (stepped : Stepped (since name history) { heap := pools.heap, mp } step after) :
    Independent (.call name step :: history)
      { heap := after.heap, pool := Function.update pools.pool name (some after.mp) } := by
  obtain ⟨before, owned⟩ := independent.owned name mp found
  obtain ⟨geometry, calls, out, simulated⟩ := independent.simulated name mp found
  have own : ∀ block, OwnedBy (pools.pool name) block ↔ Owns mp block := by
    intro block
    simp [OwnedBy, found]
  have own' : ∀ block, OwnedBy (some after.mp) block ↔ Owns after.mp block := by
    intro block
    simp [OwnedBy]
  refine independent.replace ?_ ?_ ?_ fun other different => if_neg (Ne.symm different)
  · have confined := stepped.confined owned simulated
    refine ⟨fun block outside outside' => ?_, fun block member => ?_⟩
    · exact confined.kept block (mt (own block).mpr outside) (mt (own' block).mpr outside')
    · rw [own]
      exact confined.grown block ((own' block).mp member)
  · rintro mp' same
    obtain rfl := Option.some.inj same
    exact ⟨before, stepped.owned owned⟩
  · rintro mp' same
    obtain rfl := Option.some.inj same
    obtain ⟨calls, out, simulated⟩ := stepped.simulated simulated
    rw [show since name (.call name step :: history) = step :: since name history from if_pos rfl]
    exact ⟨geometry, calls, out, simulated⟩

theorem destroy
    {mp : ArgoMemPool} {freed : List Nat} (independent : Independent history pools)
    (found : pools.pool name = some mp)
    (destroyed : argoMemPoolDestroy { heap := pools.heap, mp } = some (freed, heap)) :
    Independent (.destroy name :: history)
      { heap, pool := Function.update pools.pool name none } := by
  obtain ⟨before, owned⟩ := independent.owned name mp found
  obtain ⟨_, _, result, _, members, given, _⟩ := owned.ledger.destroyed
  obtain ⟨rfl, rfl⟩ := Prod.mk.inj (Option.some.inj (destroyed.symm.trans result))
  refine independent.replace ⟨fun block outside _ => ?_, ?_⟩ ?_ ?_
    fun other different => if_neg (Ne.symm different)
  · rw [given block]
    exact if_neg fun member => outside ⟨mp, found, (members block).mp member⟩
  · rintro block ⟨mp', nothing, _⟩
    exact (Option.some_ne_none mp' nothing.symm).elim
  · exact fun mp' nothing => (Option.some_ne_none mp' nothing.symm).elim
  · exact fun mp' nothing => (Option.some_ne_none mp' nothing.symm).elim

theorem foreign
    {block : Nat} {contents : Option Block} (independent : Independent history pools)
    (outside : ∀ name mp, pools.pool name = some mp → ¬Owns mp block) :
    Independent (.foreign block contents :: history)
      { pools with heap := Function.update pools.heap block contents } := by
  have same : ∀ name mp, pools.pool name = some mp → ∀ other, Owns mp other →
      Function.update pools.heap block contents other = pools.heap other := by
    intro name mp found other member
    refine Function.update_of_ne ?_ _ _
    rintro rfl
    exact outside name mp found member
  refine ⟨fun name mp found => ?_, independent.apart, fun name mp found => ?_⟩
  · obtain ⟨before, owned⟩ := independent.owned name mp found
    exact owned.relocate (same name mp found)
  · obtain ⟨geometry, calls, out, simulated⟩ := independent.simulated name mp found
    exact ⟨geometry, calls, out, simulated.relocate (same name mp found)⟩

end Independent

omit [DecidableEq Name] in
theorem RequestsRepresentable.tail (requests : RequestsRepresentable (event :: history)) :
    RequestsRepresentable history :=
  fun name objSz objCnt mpOutcome slabOutcome member =>
    requests name objSz objCnt mpOutcome slabOutcome (List.mem_cons_of_mem event member)

theorem PoolsRun.independent
    (run : PoolsRun history pools) (requests : RequestsRepresentable history) :
    Independent history pools := by
  induction run with
  | start => exact .start
  | create _ unused fresh created inductionHypothesis =>
      have representable := requests _ _ _ _ _ List.mem_cons_self
      exact (inductionHypothesis requests.tail).create unused representable fresh created
  | call _ found stepped inductionHypothesis =>
      exact (inductionHypothesis requests.tail).call found stepped
  | destroy _ found destroyed inductionHypothesis =>
      exact (inductionHypothesis requests.tail).destroy found destroyed
  | foreign _ outside inductionHypothesis =>
      exact (inductionHypothesis requests.tail).foreign outside

/-- In every run of a program with any number of pools, all asked for with a size
and a count that do not wrap, the events of each pool are a run of a stack
allocator of its own, and its gets and puts do not fault.  No block belongs to
two pools, and destroying a pool gives back its own blocks, each of them once. -/
theorem pools_independent
    (run : PoolsRun history pools) (requests : RequestsRepresentable history) :
    (∀ name mp, pools.pool name = some mp →
      (∃ geometry calls out,
        Simulated geometry (since name history) { heap := pools.heap, mp } calls out) ∧
      (∀ outcome, Fresh pools.heap outcome →
        ∃ result, argoMemPoolGet outcome { heap := pools.heap, mp } = some result) ∧
      (∀ addr ∈ outstanding (since name history), Owns mp addr.block ∧
        ∃ after, argoMemPoolPut addr { heap := pools.heap, mp } = some after) ∧
      ∃ freed after, argoMemPoolDestroy { heap := pools.heap, mp } = some (freed, after) ∧
        freed.Nodup ∧ (∀ block, block ∈ freed ↔ Owns mp block) ∧
        ∀ block, after block = if block ∈ freed then none else pools.heap block) ∧
    ∀ name other mp mp' block, name ≠ other → pools.pool name = some mp →
      pools.pool other = some mp' → Owns mp block → ¬Owns mp' block := by
  have independent := run.independent requests
  refine ⟨fun name mp found => ?_, ?_⟩
  · obtain ⟨before, owned⟩ := independent.owned name mp found
    obtain ⟨geometry, calls, out, simulated⟩ := independent.simulated name mp found
    refine ⟨⟨geometry, calls, out, simulated⟩, fun outcome fresh => ?_, fun addr member => ?_, ?_⟩
    · obtain ⟨result, after, got, _⟩ := argoMemPoolGet_spec simulated.represents fresh
      exact ⟨_, got⟩
    · obtain ⟨object, held, named⟩ := simulated.object_of_addr member
      obtain ⟨after, done, _⟩ := argoMemPoolPut_spec simulated.represents held named
      exact ⟨owns_of_outstanding simulated member, after, done⟩
    · obtain ⟨freed, after, destroyed, distinct, members, given, _⟩ := owned.ledger.destroyed
      exact ⟨freed, after, destroyed, distinct, members, given⟩
  · intro name other mp mp' block different found found' member member'
    exact independent.apart name other block different ⟨mp, found, member⟩ ⟨mp', found', member'⟩

end Runs

theorem owns_of_create
    {objSz objCnt : UInt32} {mpAllocation slabAllocation : Allocation} {before after : Heap}
    {mp : ArgoMemPool} {block : Nat}
    (created : argoMemPoolCreate objSz objCnt (some mpAllocation) (some slabAllocation) before =
      some (after, some mp)) (member : Owns mp block) :
    block = mpAllocation.block ∨ block = slabAllocation.block := by
  rcases argoMemPoolCreate_cases created with
    ⟨nothing, _⟩ | ⟨allocation, _, state, same, slab, ⟨_, _, nothing⟩ | ⟨_, _, pool⟩⟩
  · contradiction
  · contradiction
  obtain rfl := Option.some.inj same
  obtain rfl := Option.some.inj pool
  have used : ∀ i, (zeroedPool mpAllocation.block (mpAdjustSizeAndCount objSz objCnt).1
      (mpAdjustSizeAndCount objSz objCnt).2).slabs i ≠ none ↔ i.val < (0 : UInt64).toNat := by
    simp [zeroedPool]
  rcases mpCreateNewSlab_effect used slab with ⟨_, rfl⟩ | ⟨room, allocation, heap, same, _, _, rfl⟩
  · simp [Owns, zeroedPool] at member
    exact .inl member
  · obtain rfl := Option.some.inj same
    rcases (owns_withSlab room used _ heap block).mp member with added | earlier
    · exact .inr added
    · simp [Owns, zeroedPool] at earlier
      exact .inl earlier

/-- Two pools of two objects each. -/
theorem pools_independent_two_pools :
    ∃ (history : List (PoolsEvent Bool)) (pools : Pools Bool) (first second : ArgoMemPool),
      PoolsRun history pools ∧ pools.pool true = some first ∧ pools.pool false = some second ∧
        Owns first first.self ∧ ¬Owns second first.self := by
  let geometry : Geometry := ⟨16, 2, by decide, by decide, by decide, by decide⟩
  have size : (mpAdjustSizeAndCount 8 2).1.toNat = geometry.sz := by decide
  have count : (mpAdjustSizeAndCount 8 2).2.toNat = geometry.cnt := by decide
  have representable : Representable 8 2 := by
    refine ⟨by decide, by decide, .inl (by decide)⟩
  have fresh := createFresh_of_empty (fun _ => 0) fun _ => 0
  obtain ⟨heap, first, created, _⟩ := argoMemPoolCreate_spec geometry size count fresh
  have others : ∀ block, block ≠ 0 → block ≠ 1 → heap block = none := by
    intro block notSelf notSlab
    refine (argoMemPoolCreate_confined fresh created).kept block id fun member => ?_
    rcases owns_of_create created member with same | same
    · exact notSelf same
    · exact notSlab same
  have fresh' : CreateFresh heap (some ⟨2, fun _ => 0⟩) (some ⟨3, fun _ => 0⟩) := by
    simp [CreateFresh, Fresh, Heap.allocate, others]
  obtain ⟨heap', second, created', _⟩ := argoMemPoolCreate_spec geometry size count fresh'
  have one : PoolsRun [.create true 8 2 (some ⟨0, fun _ => 0⟩) (some ⟨1, fun _ => 0⟩)]
      { heap, pool := Function.update (fun _ => none) true (some first) } :=
    .create .start rfl fresh created
  have two : PoolsRun (.create false 8 2 (some ⟨2, fun _ => 0⟩) (some ⟨3, fun _ => 0⟩) :: _)
      { heap := heap', pool := Function.update _ false (some second) } :=
    .create one rfl fresh' created'
  have requests : RequestsRepresentable
      [.create false 8 2 (some ⟨2, fun _ => 0⟩) (some ⟨3, fun _ => 0⟩),
        PoolsEvent.create true 8 2 (some ⟨0, fun _ => 0⟩) (some ⟨1, fun _ => 0⟩)] := by
    intro name objSz objCnt mpOutcome slabOutcome member
    simp only [List.mem_cons, PoolsEvent.create.injEq, List.not_mem_nil, or_false] at member
    rcases member with ⟨_, rfl, rfl, _⟩ | ⟨_, rfl, rfl, _⟩ <;> exact representable
  exact ⟨_, _, first, second, two, rfl, rfl, .inl rfl,
    (pools_independent two requests).2 true false first second first.self (by decide) rfl rfl
      (.inl rfl)⟩

end Tpt.MemPool
