import Tpt.MemPool.Runs

/-!
# Every run refines a run of the stack allocator

The gets and puts of a history are calls of the abstract allocator, under the
naming of objects by addresses that the slab table gives.  The allocator's
results, its free stack, its outstanding objects and its slab count are those
of the pool.
-/

namespace Tpt.MemPool

open Memory StackAllocator

def Names (sz : Nat) (slabs : Fin mpSlabsMax → Option Nat) (object : Object) (addr : Ptr) : Prop :=
  objectAddress sz slabs object = some addr

inductive CallOf (names : Object → Ptr → Prop) : Event → Call → Prop where
  | get (outcome : Option Allocation) (result : Option Ptr) :
      CallOf names (.get outcome result) (.get outcome.isSome)
  | put {object : Object} {addr : Ptr} :
      names object addr → CallOf names (.put addr) (.put object)

/-- A history of the pool seen as a list of calls of the allocator. -/
structure Simulated (geometry : Geometry) (history : List Event) (state : PoolState)
    (calls : List Call) (out : List Object) : Prop where
  represents : Represents geometry state (run geometry.cnt mpSlabsMax calls).1 out
  called : List.Forall₂ (CallOf (Names geometry.sz state.mp.slabs)) (withoutWrites history) calls
  held : List.Forall₂ (Names geometry.sz state.mp.slabs) out (outstanding history)
  returned : List.Forall₂ (Option.Rel (Names geometry.sz state.mp.slabs))
    (run geometry.cnt mpSlabsMax calls).2 (results history)
  positive : 1 ≤ (run geometry.cnt mpSlabsMax calls).1.slabCnt
  sized : PeakSized geometry.cnt (run geometry.cnt mpSlabsMax calls).1.slabCnt (peak history)

section Naming

variable {geometry : Geometry} {state state' : PoolState}

theorem CallOf.mono {names names' : Object → Ptr → Prop}
    (more : ∀ object addr, names object addr → names' object addr) {event : Event} {call : Call}
    (callOf : CallOf names event call) : CallOf names' event call := by
  cases callOf with
  | get outcome result => exact .get outcome result
  | put named => exact .put (more _ _ named)

theorem rel_mono {names names' : Object → Ptr → Prop}
    (more : ∀ object addr, names object addr → names' object addr)
    {result : Option Object} {addr? : Option Ptr}
    (related : Option.Rel names result addr?) : Option.Rel names' result addr? := by
  cases related with
  | some named => exact .some (more _ _ named)
  | none => exact .none

theorem SlabTable.names_biUnique (table : SlabTable geometry state) :
    Relator.BiUnique (Names geometry.sz state.mp.slabs) := by
  constructor
  · intro object other addr named otherNamed
    simp only [Names, objectAddress, Option.map_eq_some_iff] at named otherNamed
    rcases named with ⟨block, found, rfl⟩
    rcases otherNamed with ⟨otherBlock, otherFound, same⟩
    simp only [Ptr.mk.injEq] at same
    obtain ⟨rfl, offsets⟩ := same
    have slabs := table.distinct _ _ _ found otherFound
    have indices := geometry.index_eq_of_offset_eq (Nat.add_right_cancel offsets).symm
    exact Prod.ext slabs indices
  · intro object addr other named otherNamed
    exact Option.some.inj (named.symm.trans otherNamed)

theorem GetEffect.names {outcome : Option Allocation} {allocator : StackAllocator}
    {out : List Object} {result : Option Ptr}
    (effect : GetEffect geometry outcome allocator out state result state')
    (before : Represents geometry state allocator out) :
    ∀ object addr, Names geometry.sz state.mp.slabs object addr →
      Names geometry.sz state'.mp.slabs object addr := by
  intro object addr named
  have slabs : state'.mp.slabs = (state.layout.afterGet geometry allocator outcome).slabs :=
    congrArg Layout.slabs effect.layout
  simp only [Names, objectAddress, Option.map_eq_some_iff] at named ⊢
  rcases named with ⟨block, found, rfl⟩
  refine ⟨block, ?_, rfl⟩
  rw [slabs]
  unfold Layout.afterGet
  split
  next allocation =>
    split
    next grown =>
      have old : object.1 ≠ allocator.slabCnt := by
        intro added
        rw [before.unused object.1 (by rw [before.count, added])] at found
        contradiction
      rw [slabBlock_addSlab old]
      exact found
    next => exact found
  next => exact found

/-- Removing related elements from related lists, when the relation is
one-to-one. -/
theorem forall₂_erase {Left Right : Type} [BEq Left] [LawfulBEq Left]
    [BEq Right] [LawfulBEq Right]
    {related : Left → Right → Prop} {lefts : List Left} {rights : List Right}
    {left : Left} {right : Right} (all : List.Forall₂ related lefts rights)
    (here : related left right) (unique : Relator.BiUnique related) :
    List.Forall₂ related (lefts.erase left) (rights.erase right) := by
  induction all with
  | nil => simp
  | @cons first second lefts rights pair rest inductionHypothesis =>
      by_cases same : first = left
      · subst first
        rw [unique.2 pair here]
        simpa using rest
      · have different : second ≠ right := fun equal => same (unique.1 (equal ▸ pair) here)
        rw [List.erase_cons_tail (by simpa using same),
          List.erase_cons_tail (by simpa using different)]
        exact .cons pair inductionHypothesis

theorem forall₂_mem_right {Left Right : Type} {related : Left → Right → Prop}
    {lefts : List Left} {rights : List Right} {right : Right}
    (all : List.Forall₂ related lefts rights) (membership : right ∈ rights) :
    ∃ left ∈ lefts, related left right := by
  induction all with
  | nil => simp at membership
  | @cons first second lefts rights pair rest inductionHypothesis =>
      rcases List.mem_cons.mp membership with rfl | later
      · exact ⟨first, by simp, pair⟩
      · rcases inductionHypothesis later with ⟨left, found, here⟩
        exact ⟨left, by simp [found], here⟩

theorem held_after_get {names : Object → Ptr → Prop} {out : List Object} {history : List Event}
    {object? : Option Object} {result : Option Ptr} (outcome : Option Allocation)
    (related : Option.Rel names object? result)
    (held : List.Forall₂ names out (outstanding history)) :
    List.Forall₂ names (object?.toList ++ out) (outstanding (.get outcome result :: history)) := by
  cases related with
  | none => exact held
  | some named => exact .cons named held

end Naming

section Steps

variable {geometry : Geometry} {history : List Event} {state state' : PoolState}
  {calls : List Call} {out : List Object}

theorem GetEffect.related {outcome : Option Allocation} {allocator : StackAllocator}
    {result : Option Ptr}
    (effect : GetEffect geometry outcome allocator out state result state') :
    Option.Rel (Names geometry.sz state'.mp.slabs)
      (allocator.get geometry.cnt mpSlabsMax outcome.isSome).1 result := by
  have returned := effect.returned
  cases abstract : (allocator.get geometry.cnt mpSlabsMax outcome.isSome).1 with
  | none =>
      rw [abstract] at returned
      cases result with
      | none => exact .none
      | some addr => simp at returned
  | some object =>
      rw [abstract] at returned
      cases result with
      | none => simp at returned
      | some addr => exact .some (by simpa [Names] using returned)

theorem Simulated.get {outcome : Option Allocation} {result : Option Ptr}
    (simulated : Simulated geometry history state calls out)
    (effect : GetEffect geometry outcome (run geometry.cnt mpSlabsMax calls).1 out
      state result state') :
    ∃ out', Simulated geometry (.get outcome result :: history) state'
      (.get outcome.isSome :: calls) out' := by
  have names := effect.names simulated.represents
  have related := effect.related
  have held := simulated.held.imp names
  have sized := PeakSized.get geometry.nonempty simulated.sized
    simulated.represents.partition effect.represents.partition
  have grown := slabCnt_le_get geometry.nonempty mpSlabsMax outcome.isSome
    (run geometry.cnt mpSlabsMax calls).1
  have heldAfter := held_after_get outcome related held
  refine ⟨_, effect.represents, .cons (.get _ _) ?_, heldAfter, .cons related ?_,
    le_trans simulated.positive grown, ?_⟩
  · exact simulated.called.imp fun _ _ callOf => callOf.mono names
  · exact simulated.returned.imp fun _ _ rel => rel_mono names rel
  · rw [heldAfter.length_eq] at sized
    exact sized

theorem Simulated.object_of_addr (simulated : Simulated geometry history state calls out)
    {addr : Ptr} (membership : addr ∈ outstanding history) :
    ∃ object ∈ out, Names geometry.sz state.mp.slabs object addr :=
  forall₂_mem_right simulated.held membership

theorem Simulated.put {addr : Ptr} {object : Object}
    (simulated : Simulated geometry history state calls out)
    (named : Names geometry.sz state.mp.slabs object addr)
    (represents : Represents geometry state'
      ((run geometry.cnt mpSlabsMax calls).1.put object) (out.erase object))
    (slabs : state'.mp.slabs = state.mp.slabs) :
    Simulated geometry (.put addr :: history) state' (.put object :: calls)
      (out.erase object) := by
  have held : List.Forall₂ (Names geometry.sz state.mp.slabs) (out.erase object)
      ((outstanding history).erase addr) :=
    forall₂_erase simulated.held named simulated.represents.names_biUnique
  refine ⟨represents, ?_, ?_, ?_, simulated.positive, ?_⟩
  · rw [slabs]
    exact .cons (.put named) simulated.called
  · rw [slabs]
    exact held
  · rw [slabs]
    exact simulated.returned
  · exact simulated.sized.extend (held.length_eq ▸ represents.partition.out_le)

theorem Simulated.write {pointer : Ptr} {byte : UInt8}
    (simulated : Simulated geometry history state calls out)
    (represents : Represents geometry state' (run geometry.cnt mpSlabsMax calls).1 out)
    (slabs : state'.mp.slabs = state.mp.slabs) :
    Simulated geometry (.write pointer byte :: history) state' calls out := by
  refine ⟨represents, ?_, ?_, ?_, simulated.positive, ?_⟩
  · rw [slabs]
    exact simulated.called
  · rw [slabs]
    exact simulated.held
  · rw [slabs]
    exact simulated.returned
  · exact simulated.sized.extend (simulated.held.length_eq ▸ represents.partition.out_le)

theorem Simulated.start {start : PoolState}
    (represents : Represents geometry start (initial geometry.cnt) []) :
    Simulated geometry [] start [] [] :=
  ⟨represents, .nil, .nil, .nil, le_refl 1, ⟨Nat.zero_le _, Or.inl rfl⟩⟩

theorem Run.simulated {start : PoolState}
    (represents : Represents geometry start (initial geometry.cnt) [])
    (run : Run start history state) :
    ∃ calls out, Simulated geometry history state calls out := by
  induction run with
  | start => exact ⟨[], [], .start represents⟩
  | @get history state outcome result state' before fresh got inductionHypothesis =>
      rcases inductionHypothesis with ⟨calls, out, simulated⟩
      rcases argoMemPoolGet_spec simulated.represents fresh with
        ⟨result', state'', got', effect⟩
      rw [got] at got'
      simp only [Option.some.injEq, Prod.mk.injEq] at got'
      obtain ⟨rfl, rfl⟩ := got'
      exact ⟨_, simulated.get effect⟩
  | @put history state addr state' before membership done inductionHypothesis =>
      rcases inductionHypothesis with ⟨calls, out, simulated⟩
      rcases simulated.object_of_addr membership with ⟨object, held, named⟩
      rcases argoMemPoolPut_spec simulated.represents held named with
        ⟨state'', done', represents', layout, _⟩
      obtain rfl := Option.some.inj (done.symm.trans done')
      exact ⟨_, _, simulated.put named represents' (congrArg Layout.slabs layout)⟩
  | @write history state pointer byte heap before client stored inductionHypothesis =>
      rcases inductionHypothesis with ⟨calls, out, simulated⟩
      rcases store8_spec simulated.represents client byte with
        ⟨heap', stored', represents', _⟩
      obtain rfl := Option.some.inj (stored.symm.trans stored')
      exact ⟨_, _, simulated.write represents' rfl⟩

end Steps

theorem exists_first_get (geometry : Geometry) {objSz objCnt : UInt32}
    (size : (mpAdjustSizeAndCount objSz objCnt).1.toNat = geometry.sz)
    (count : (mpAdjustSizeAndCount objSz objCnt).2.toNat = geometry.cnt)
    {heap : Heap} {mpAllocation slabAllocation : Allocation}
    (fresh : CreateFresh heap (some mpAllocation) (some slabAllocation)) :
    ∃ heap' mp addr state,
      argoMemPoolCreate objSz objCnt (some mpAllocation) (some slabAllocation) heap =
        some (heap', some mp) ∧
      geometry.Fits mp ∧ Run { heap := heap', mp } [.get none (some addr)] state := by
  rcases argoMemPoolCreate_spec geometry size count fresh with
    ⟨heap', mp, created, represents⟩
  have available : Fresh heap' none := by simp [Fresh]
  rcases argoMemPoolGet_spec represents available with ⟨result, state, got, effect⟩
  rcases slabObjects_eq_cons geometry.nonempty 0 with ⟨rest, objects⟩
  have related := effect.related
  simp only [StackAllocator.get, initial, addSlab, pop, objects] at related
  cases result with
  | none => simp at related
  | some addr => exact ⟨heap', mp, addr, state, created, represents.fits, .get .start available got⟩

end Tpt.MemPool
