import Tpt.MemPool.Correctness

/-!
# Client data and metadata do not interfere

The pool never reads a byte that belongs to the client and never writes one.
Comparing a run with the same run without its client writes therefore shows
the same results, and the payload of an outstanding object is stable.
-/

namespace Tpt.MemPool

open Memory StackAllocator

/-- An event without what it returned: the request made to the pool. -/
def Event.request : Event → Event
  | .get outcome _ => .get outcome none
  | .put addr => .put addr
  | .write pointer byte => .write pointer byte

theorem outstanding_withoutWrites (history : List Event) :
    outstanding (withoutWrites history) = outstanding history := by
  induction history with
  | nil => rfl
  | cons event history inductionHypothesis =>
      cases event with
      | get outcome result =>
          cases result <;> simp [withoutWrites, outstanding, inductionHypothesis]
      | put addr => simp [withoutWrites, outstanding, inductionHypothesis]
      | write pointer byte => simpa [withoutWrites, outstanding] using inductionHypothesis

theorem results_withoutWrites (history : List Event) :
    results (withoutWrites history) = results history := by
  induction history with
  | nil => rfl
  | cons event history inductionHypothesis =>
      cases event <;> simp [withoutWrites, results, inductionHypothesis]

theorem Run.deterministic {start : PoolState} {history other : List Event}
    {state final : PoolState} (run : Run start history state) (otherRun : Run start other final)
    (same : other.map Event.request = history.map Event.request) :
    other = history ∧ final = state := by
  induction run generalizing other final with
  | start =>
      have empty : other = [] := by simpa using same
      subst other
      cases otherRun
      exact ⟨rfl, rfl⟩
  | get before fresh got inductionHypothesis =>
      cases otherRun with
      | start => simp at same
      | get otherBefore otherFresh otherGot =>
          simp only [List.map_cons, Event.request, List.cons.injEq, Event.get.injEq,
            and_true] at same
          obtain ⟨rfl, rfl⟩ := inductionHypothesis otherBefore same.2
          obtain rfl := same.1
          rw [got] at otherGot
          simp only [Option.some.injEq, Prod.mk.injEq] at otherGot
          obtain ⟨rfl, rfl⟩ := otherGot
          exact ⟨rfl, rfl⟩
      | put otherBefore => simp [Event.request] at same
      | write otherBefore => simp [Event.request] at same
  | put before membership done inductionHypothesis =>
      cases otherRun with
      | start => simp at same
      | get otherBefore => simp [Event.request] at same
      | put otherBefore otherMembership otherDone =>
          simp only [List.map_cons, Event.request, List.cons.injEq, Event.put.injEq] at same
          obtain ⟨rfl, rfl⟩ := inductionHypothesis otherBefore same.2
          obtain rfl := same.1
          exact ⟨rfl, Option.some.inj (otherDone.symm.trans done)⟩
      | write otherBefore => simp [Event.request] at same
  | write before client stored inductionHypothesis =>
      cases otherRun with
      | start => simp at same
      | get otherBefore => simp [Event.request] at same
      | put otherBefore => simp [Event.request] at same
      | write otherBefore otherClient otherStored =>
          simp only [List.map_cons, Event.request, List.cons.injEq, Event.write.injEq] at same
          obtain ⟨rfl, rfl⟩ := inductionHypothesis otherBefore same.2
          obtain ⟨⟨rfl, rfl⟩, _⟩ := same
          obtain rfl := Option.some.inj (otherStored.symm.trans stored)
          exact ⟨rfl, rfl⟩

structure Alike (geometry : Geometry) (allocator : StackAllocator) (out : List Object)
    (state other : PoolState) : Prop where
  represents : Represents geometry state allocator out
  otherRepresents : Represents geometry other allocator out
  layout : other.layout = state.layout

section Alike

variable {geometry : Geometry} {allocator : StackAllocator} {out : List Object}
  {state other : PoolState}

theorem Alike.slabs (alike : Alike geometry allocator out state other) :
    other.mp.slabs = state.mp.slabs := congrArg Layout.slabs alike.layout

theorem Alike.fresh (alike : Alike geometry allocator out state other)
    {outcome : Option Allocation} (fresh : Fresh state.heap outcome) :
    Fresh other.heap outcome := by
  intro allocation chosen
  have sizes : (other.heap allocation.block).map Block.size =
      (state.heap allocation.block).map Block.size :=
    congrFun (congrArg Layout.sizes alike.layout) allocation.block
  rw [fresh allocation chosen] at sizes
  simpa using sizes

theorem Alike.get (alike : Alike geometry allocator out state other)
    {outcome : Option Allocation} (fresh : Fresh state.heap outcome)
    {result : Option Ptr} {state' : PoolState}
    (got : argoMemPoolGet outcome state = some (result, state')) :
    ∃ other', argoMemPoolGet outcome other = some (result, other') ∧
      Alike geometry (allocator.get geometry.cnt mpSlabsMax outcome.isSome).2
        ((allocator.get geometry.cnt mpSlabsMax outcome.isSome).1.toList ++ out) state' other' ∧
      GetEffect geometry outcome allocator out state result state' := by
  rcases argoMemPoolGet_spec alike.represents fresh with ⟨_, _, got', effect⟩
  rw [got] at got'
  simp only [Option.some.injEq, Prod.mk.injEq] at got'
  obtain ⟨rfl, rfl⟩ := got'
  rcases argoMemPoolGet_spec alike.otherRepresents (alike.fresh fresh) with
    ⟨otherResult, other', otherGot, otherEffect⟩
  have layout : other'.layout = state'.layout := by
    rw [effect.layout, otherEffect.layout, alike.layout]
  have slabs : other'.mp.slabs = state'.mp.slabs := congrArg Layout.slabs layout
  have same : otherResult = result := by
    have returned := otherEffect.returned
    rw [slabs, effect.returned] at returned
    exact (Option.map_injective (Option.some_injective Ptr) returned).symm
  exact ⟨other', same ▸ otherGot,
    ⟨effect.represents, otherEffect.represents, layout⟩, effect⟩

theorem Alike.put (alike : Alike geometry allocator out state other)
    {object : Object} (held : object ∈ out) {addr : Ptr}
    (named : Names geometry.sz state.mp.slabs object addr) {state' : PoolState}
    (done : argoMemPoolPut addr state = some state') :
    ∃ other', argoMemPoolPut addr other = some other' ∧
      Alike geometry (allocator.put object) (out.erase object) state' other' := by
  rcases argoMemPoolPut_spec alike.represents held named with
    ⟨_, done', represents, layout, _⟩
  obtain rfl := Option.some.inj (done.symm.trans done')
  have otherNamed : Names geometry.sz other.mp.slabs object addr := alike.slabs ▸ named
  rcases argoMemPoolPut_spec alike.otherRepresents held otherNamed with
    ⟨other', otherDone, otherRepresents, otherLayout, _⟩
  exact ⟨other', otherDone, represents, otherRepresents,
    by rw [otherLayout, alike.layout, layout]⟩

theorem Alike.write (alike : Alike geometry allocator out state other)
    {pointer : Ptr} {byte : UInt8} (client : ClientByte state pointer) {heap : Heap}
    (stored : state.heap.store8 pointer byte = some heap) :
    Alike geometry allocator out { state with heap := heap } other := by
  rcases store8_spec alike.represents client byte with ⟨_, stored', represents, layout⟩
  obtain rfl := Option.some.inj (stored.symm.trans stored')
  exact ⟨represents, alike.otherRepresents, alike.layout.trans layout.symm⟩

end Alike

/-- Leaving out the client writes gives a run with the same events, which
include what every get returned. -/
theorem Run.withoutWrites {geometry : Geometry} {start state : PoolState}
    {history : List Event} (represents : Represents geometry start (initial geometry.cnt) [])
    (run : Run start history state) :
    ∃ other allocator out, Run start (withoutWrites history) other ∧
      Alike geometry allocator out state other ∧
      List.Forall₂ (Names geometry.sz state.mp.slabs) out (outstanding history) := by
  induction run with
  | start => exact ⟨start, initial geometry.cnt, [], .start, ⟨represents, represents, rfl⟩, .nil⟩
  | get before fresh got inductionHypothesis =>
      rcases inductionHypothesis with ⟨other, allocator, out, otherRun, alike, held⟩
      rcases alike.get fresh got with ⟨other', otherGot, alike', effect⟩
      refine ⟨other', _, _, .get otherRun (alike.fresh fresh) otherGot, alike', ?_⟩
      exact held_after_get _ effect.related (held.imp (effect.names alike.represents))
  | @put history state addr state' before membership done inductionHypothesis =>
      rcases inductionHypothesis with ⟨other, allocator, out, otherRun, alike, held⟩
      rcases forall₂_mem_right held membership with ⟨object, inOut, named⟩
      rcases argoMemPoolPut_spec alike.represents inOut named with ⟨_, done', _, layout, _⟩
      obtain rfl := Option.some.inj (done.symm.trans done')
      have slabs : state'.mp.slabs = state.mp.slabs := congrArg Layout.slabs layout
      rcases alike.put inOut named done with ⟨other', otherDone, alike'⟩
      refine ⟨other', _, _, .put otherRun ?_ otherDone, alike', ?_⟩
      · rw [outstanding_withoutWrites]
        exact membership
      · rw [slabs]
        exact forall₂_erase held named alike.represents.names_biUnique
  | write before client stored inductionHypothesis =>
      rcases inductionHypothesis with ⟨other, allocator, out, otherRun, alike, held⟩
      exact ⟨other, allocator, out, otherRun, alike.write client stored, held⟩

/-- The payloads `[addr, addr + sz - 8)` of the outstanding addresses. -/
structure Separated (objSz : UInt32) (history : List Event) (state : PoolState) : Prop where
  inside : ∀ addr ∈ outstanding history, ∃ slab contents,
    slab < state.mp.mpSlabCnt.toNat ∧ slabBlock state.mp.slabs slab = some addr.block ∧
      state.heap addr.block = some contents ∧
      addr.offset + (state.mp.mpObjSz.toNat - mpMetadataSz) ≤ contents.size
  disjoint : (outstanding history).Pairwise fun addr other => addr.block = other.block →
    addr.offset + (state.mp.mpObjSz.toNat - mpMetadataSz) ≤ other.offset ∨
      other.offset + (state.mp.mpObjSz.toNat - mpMetadataSz) ≤ addr.offset
  metadata : ∀ addr ∈ outstanding history, ∀ slab index,
    slabBlock state.mp.slabs slab = some addr.block → index < state.mp.mpObjCnt.toNat →
      addr.offset + (state.mp.mpObjSz.toNat - mpMetadataSz) ≤ index * state.mp.mpObjSz.toNat ∨
        index * state.mp.mpObjSz.toNat + mpMetadataSz ≤ addr.offset
  room : objSz.toNat ≤ state.mp.mpObjSz.toNat - mpMetadataSz
  aligned : ∀ addr ∈ outstanding history, 8 ∣ addr.offset
  writable : ∀ addr ∈ outstanding history,
    ∀ index < state.mp.mpObjSz.toNat - mpMetadataSz, ClientByte state (addr.add index)

section Payload

variable {geometry : Geometry} {state : PoolState} {allocator : StackAllocator}
  {out : List Object} {history : List Event}

theorem Represents.address_of_held (represents : Represents geometry state allocator out)
    (held : List.Forall₂ (Names geometry.sz state.mp.slabs) out (outstanding history))
    {addr : Ptr} (membership : addr ∈ outstanding history) :
    ∃ object : Object, object.1 < state.mp.mpSlabCnt.toNat ∧ object.2 < geometry.cnt ∧
      slabBlock state.mp.slabs object.1 = some addr.block ∧
      addr.offset = object.2 * geometry.sz + mpMetadataSz := by
  rcases forall₂_mem_right held membership with ⟨object, inOut, named⟩
  rcases represents.in_use (List.mem_append_right _ inOut) with ⟨inUse, inSlab, _, block, found⟩
  simp only [Names, objectAddress, found, Option.map_some, Option.some.injEq] at named
  subst addr
  exact ⟨object, inUse, inSlab, found, rfl⟩

theorem Represents.payload_client (represents : Represents geometry state allocator out)
    (held : List.Forall₂ (Names geometry.sz state.mp.slabs) out (outstanding history))
    {addr : Ptr} (membership : addr ∈ outstanding history)
    {index : Nat} (bounded : index < geometry.sz - mpMetadataSz) :
    ClientByte state (addr.add index) := by
  rcases represents.address_of_held held membership with
    ⟨object, inUse, inSlab, found, offset⟩
  have inside := geometry.metadata_inside inSlab
  refine ⟨object.1, inUse, found, ?_, ?_⟩
  · rw [represents.fits.1, represents.fits.2, Ptr.add_offset, offset]
    omega
  · have within : mpMetadataSz + index < geometry.sz := by omega
    rw [represents.fits.1, Ptr.add_offset, offset, Nat.add_assoc, Nat.add_comm,
      Nat.add_mul_mod_self_right, Nat.mod_eq_of_lt within]
    omega

theorem Represents.payload_inside (represents : Represents geometry state allocator out)
    (held : List.Forall₂ (Names geometry.sz state.mp.slabs) out (outstanding history))
    {addr : Ptr} (membership : addr ∈ outstanding history) :
    ∃ slab contents, slab < state.mp.mpSlabCnt.toNat ∧
      slabBlock state.mp.slabs slab = some addr.block ∧
      state.heap addr.block = some contents ∧
      addr.offset + (geometry.sz - mpMetadataSz) ≤ contents.size := by
  rcases represents.address_of_held held membership with
    ⟨object, inUse, inSlab, found, offset⟩
  rcases represents.live object.1 inUse with ⟨block, contents, found', live, size⟩
  obtain rfl : block = addr.block := Option.some.inj (found'.symm.trans found)
  have inside := geometry.metadata_inside inSlab
  have holds : mpMetadataSz ≤ geometry.sz := geometry.holdsMetadata
  refine ⟨object.1, contents, inUse, found, live, ?_⟩
  rw [size, offset]
  omega

/-- The payloads of two outstanding objects do not meet. -/
theorem Represents.payloads_apart (represents : Represents geometry state allocator out)
    (held : List.Forall₂ (Names geometry.sz state.mp.slabs) out (outstanding history))
    {addr other : Ptr} (membership : addr ∈ outstanding history)
    (otherMembership : other ∈ outstanding history) (different : addr ≠ other)
    (sameBlock : addr.block = other.block) :
    addr.offset + (geometry.sz - mpMetadataSz) ≤ other.offset ∨
      other.offset + (geometry.sz - mpMetadataSz) ≤ addr.offset := by
  rcases represents.address_of_held held membership with ⟨object, _, _, _, offset⟩
  rcases represents.address_of_held held otherMembership with
    ⟨otherObject, _, _, _, otherOffset⟩
  rw [offset, otherOffset]
  rcases Nat.lt_trichotomy object.2 otherObject.2 with before | same | after
  · have := geometry.apart before
    omega
  · refine absurd ?_ different
    cases addr
    cases other
    simp_all
  · have := geometry.apart after
    omega

/-- The payload of an outstanding object meets no metadata word. -/
theorem Represents.payload_apart_metadata (represents : Represents geometry state allocator out)
    (held : List.Forall₂ (Names geometry.sz state.mp.slabs) out (outstanding history))
    {addr : Ptr} (membership : addr ∈ outstanding history) (index : Nat) :
    addr.offset + (geometry.sz - mpMetadataSz) ≤ index * geometry.sz ∨
      index * geometry.sz + mpMetadataSz ≤ addr.offset := by
  rcases represents.address_of_held held membership with ⟨object, _, _, _, offset⟩
  have holds : mpMetadataSz ≤ geometry.sz := geometry.holdsMetadata
  rw [offset]
  rcases Nat.lt_or_ge object.2 index with before | after
  · have := geometry.apart before
    omega
  · have := Nat.mul_le_mul_right geometry.sz after
    omega

theorem Represents.separated (represents : Represents geometry state allocator out)
    (held : List.Forall₂ (Names geometry.sz state.mp.slabs) out (outstanding history))
    {objSz : UInt32} (room : objSz.toNat + mpMetadataSz ≤ geometry.sz) :
    Separated objSz history state := by
  have nodup : (outstanding history).Nodup :=
    (List.rel_nodup represents.names_biUnique held).mp
      represents.partition.nodup.of_append_right
  constructor
  case inside =>
    intro addr membership
    rw [represents.fits.1]
    exact represents.payload_inside held membership
  case disjoint =>
    apply nodup.imp_of_mem
    intro addr other membership otherMembership different sameBlock
    rw [represents.fits.1]
    exact represents.payloads_apart held membership otherMembership different sameBlock
  case metadata =>
    intro addr membership slab index _ _
    rw [represents.fits.1]
    exact represents.payload_apart_metadata held membership index
  case room =>
    rw [represents.fits.1]
    exact Nat.le_sub_of_add_le room
  case aligned =>
    intro addr membership
    rcases represents.address_of_held held membership with ⟨object, _, _, _, offset⟩
    rw [offset]
    exact Dvd.dvd.add (geometry.offset_aligned object.2) (dvd_refl 8)
  case writable =>
    intro addr membership index bounded
    rw [represents.fits.1] at bounded
    exact represents.payload_client held membership bounded

end Payload

/-- Client writes to payload bytes change nothing the pool does, the pool
changes no payload byte of an outstanding object, and payloads and metadata
words are separated.  The request is adjusted without wrapping, as `capped`
implies in exact arithmetic. -/
theorem client_data_separated {objSz objCnt : UInt32}
    {mpOutcome slabOutcome : Option Allocation} {heap heap' : Heap} {mp : ArgoMemPool}
    (fresh : CreateFresh heap mpOutcome slabOutcome)
    (created : argoMemPoolCreate objSz objCnt mpOutcome slabOutcome heap =
      some (heap', some mp))
    (nonempty : 1 ≤ mp.mpObjCnt.toNat)
    (capped : exactObjSz objSz * mp.mpObjCnt.toNat ≤ 2 ^ 28)
    {history : List Event} {state : PoolState}
    (run : Run { heap := heap', mp } history state) :
    ((∃ other, Run { heap := heap', mp } (withoutWrites history) other) ∧
      ∀ other final, Run { heap := heap', mp } other final →
        other.map Event.request = (withoutWrites history).map Event.request →
        results other = results history) ∧
    ((∀ outcome result state', Fresh state.heap outcome →
        argoMemPoolGet outcome state = some (result, state') →
        ∀ addr ∈ outstanding history, ∀ index < state.mp.mpObjSz.toNat - mpMetadataSz,
          state'.heap.byte? (addr.add index) = state.heap.byte? (addr.add index)) ∧
      ∀ put ∈ outstanding history, ∀ state', argoMemPoolPut put state = some state' →
        ∀ addr ∈ outstanding history, ∀ index < state.mp.mpObjSz.toNat - mpMetadataSz,
          state'.heap.byte? (addr.add index) = state.heap.byte? (addr.add index)) ∧
    Separated objSz history state := by
  rcases argoMemPoolCreate_some created with ⟨size, _, _, _⟩
  have exactSz := exactObjSz_spec objSz
  have small : exactObjSz objSz ≤ 2 ^ 28 :=
    le_trans (Nat.le_mul_of_pos_right _ nonempty) capped
  have unwrapped : mp.mpObjSz.toNat = exactObjSz objSz := by
    rw [size, adjusted_sz_toNat, exactObjSz]
    omega
  let geometry := Geometry.ofPool mp (by omega) (by omega) nonempty (unwrapped ▸ capped)
  have represents := Represents.of_create geometry fresh created ⟨rfl, rfl⟩
  rcases run.withoutWrites represents with ⟨other, allocator, out, otherRun, alike, held⟩
  have client : ∀ addr ∈ outstanding history,
      ∀ index < state.mp.mpObjSz.toNat - mpMetadataSz, ClientByte state (addr.add index) := by
    intro addr membership index bounded
    rw [alike.represents.fits.1] at bounded
    exact alike.represents.payload_client held membership bounded
  refine ⟨⟨⟨other, otherRun⟩, ?_⟩, ⟨?_, ?_⟩, alike.represents.separated held (by
    change objSz.toNat + 8 ≤ mp.mpObjSz.toNat
    omega)⟩
  · intro second final secondRun same
    rw [(otherRun.deterministic secondRun same).1, results_withoutWrites]
  · intro outcome result state' available got addr membership index bounded
    rcases alike.get available got with ⟨_, _, _, effect⟩
    exact effect.client _ (client addr membership index bounded)
  · intro put putMembership state' done addr membership index bounded
    rcases forall₂_mem_right held putMembership with ⟨object, inOut, named⟩
    rcases argoMemPoolPut_spec alike.represents inOut named with ⟨_, done', _, _, keeps⟩
    obtain rfl := Option.some.inj (done.symm.trans done')
    exact keeps _ (client addr membership index bounded)

/-- Objects of five bytes take sixteen bytes each; one is outstanding. -/
theorem separated_after_one_get :
    ∃ heap' mp addr state, argoMemPoolCreate 5 3 (some ⟨0, fun _ => 0⟩) (some ⟨1, fun _ => 0⟩)
        (fun _ => none) = some (heap', some mp) ∧
      Run { heap := heap', mp } [.get none (some addr)] state ∧
      Separated 5 [.get none (some addr)] state := by
  have fresh := createFresh_of_empty (fun _ => 0) fun _ => 0
  rcases exists_first_get ⟨16, 3, by decide, by decide, by decide, by decide⟩
      (show (mpAdjustSizeAndCount 5 3).1.toNat = 16 by decide) (by decide) fresh with
    ⟨heap', mp, addr, state, created, ⟨_, count⟩, run⟩
  exact ⟨heap', mp, addr, state, created, run,
    (client_data_separated fresh created (by rw [count]; decide)
      (by rw [count]; decide) run).2.2⟩

end Tpt.MemPool
