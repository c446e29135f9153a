import Tpt.MemPool.Runs

/-!
# Which requests give a usable pool

`__mp_adjust_size_and_count` computes in 32 bits.  A large object size wraps,
and so does the product that is compared with the slab cap.
-/

namespace Tpt.MemPool

open Memory StackAllocator

/-- The adjusted geometry of a created pool is usable in exact arithmetic: the
objects hold the request and a metadata word, and they fill the slab block,
which is within the cap. -/
structure UsablePool (objSz : UInt32) (heap : Heap) (mp : ArgoMemPool) : Prop where
  aligned : 8 ∣ mp.mpObjSz.toNat
  room : objSz.toNat + mpMetadataSz ≤ mp.mpObjSz.toNat
  nonempty : 1 ≤ mp.mpObjCnt.toNat
  capped : mp.mpObjSz.toNat * mp.mpObjCnt.toNat ≤ 2 ^ 28
  slab : ∃ block contents, slabBlock mp.slabs 0 = some block ∧ heap block = some contents ∧
    contents.size = mp.mpObjSz.toNat * mp.mpObjCnt.toNat ∧
    ∀ index < mp.mpObjCnt.toNat, index * mp.mpObjSz.toNat + mpMetadataSz ≤ contents.size

/-- Whatever `ARGO_ALLOC` returns, creation writes no metadata word outside
the slab block, and a pool it returns is usable. -/
def CreatesUsable (objSz objCnt : UInt32) : Prop :=
  ∀ heap mpOutcome slabOutcome, CreateFresh heap mpOutcome slabOutcome →
    ∃ heap' pool, argoMemPoolCreate objSz objCnt mpOutcome slabOutcome heap =
        some (heap', pool) ∧
      ∀ mp, pool = some mp → UsablePool objSz heap' mp

/-- The requests for which nothing wraps unnoticed: one object fits in a slab,
there is at least one, and a product above the cap is seen to be above it. -/
def Representable (objSz objCnt : UInt32) : Prop :=
  exactObjSz objSz ≤ 2 ^ 28 ∧ 1 ≤ objCnt.toNat ∧
    (exactObjSz objSz * objCnt.toNat ≤ 2 ^ 28 ∨
      2 ^ 28 < exactObjSz objSz * objCnt.toNat % 2 ^ 32)

theorem adjusted_sz_of_small {objSz : UInt32} (objCnt : UInt32)
    (small : exactObjSz objSz ≤ 2 ^ 28) :
    (mpAdjustSizeAndCount objSz objCnt).1.toNat = exactObjSz objSz := by
  have := exactObjSz_spec objSz
  rw [adjusted_sz_toNat]
  unfold exactObjSz at *
  omega

theorem Representable.geometry {objSz objCnt : UInt32}
    (representable : Representable objSz objCnt) :
    ∃ geometry : Geometry, (mpAdjustSizeAndCount objSz objCnt).1.toNat = geometry.sz ∧
      (mpAdjustSizeAndCount objSz objCnt).2.toNat = geometry.cnt ∧
      objSz.toNat + mpMetadataSz ≤ geometry.sz := by
  rcases representable with ⟨small, requested, product⟩
  have size := adjusted_sz_of_small objCnt small
  have count := adjusted_cnt_toNat objSz objCnt
  simp only [size] at count
  have spec := exactObjSz_spec objSz
  by_cases above : 2 ^ 28 < exactObjSz objSz * objCnt.toNat % 2 ^ 32
  · rw [if_pos above] at count
    refine ⟨⟨exactObjSz objSz, 2 ^ 28 / exactObjSz objSz, spec.1, by omega, ?_, ?_⟩,
      size, count, spec.2.1⟩
    · exact (Nat.one_le_div_iff (by omega)).mpr small
    · exact Nat.mul_div_le _ _
  · rw [if_neg above] at count
    exact ⟨⟨exactObjSz objSz, objCnt.toNat, spec.1, by omega, requested,
      product.resolve_right above⟩, size, count, spec.2.1⟩

theorem argoMemPoolCreate_none {objSz objCnt : UInt32} {heap : Heap}
    {mpOutcome slabOutcome : Option Allocation}
    (failed : mpOutcome = none ∨ slabOutcome = none) :
    ∃ heap', argoMemPoolCreate objSz objCnt mpOutcome slabOutcome heap = some (heap', none) := by
  cases mpOutcome with
  | none => exact ⟨heap, rfl⟩
  | some mpAllocation =>
      obtain rfl := failed.resolve_left (by simp)
      simp [argoMemPoolCreate, mpCreateNewSlab, zeroedPool]

theorem argoMemPoolCreate_pool {objSz objCnt : UInt32} {heap heap' : Heap}
    {mpAllocation slabAllocation : Allocation} {pool : Option ArgoMemPool}
    (created : argoMemPoolCreate objSz objCnt (some mpAllocation) (some slabAllocation) heap =
      some (heap', pool)) : ∃ mp, pool = some mp := by
  rcases argoMemPoolCreate_cases created with
    ⟨nothing, _⟩ | ⟨_, _, state, _, slabCreated, ⟨failed, _⟩ | ⟨_, _, returned⟩⟩
  · contradiction
  · exact absurd ((mpCreateNewSlab_some slabCreated).2.2.mpr rfl) failed
  · exact ⟨state.mp, returned⟩

theorem Representable.createsUsable {objSz objCnt : UInt32}
    (representable : Representable objSz objCnt) : CreatesUsable objSz objCnt := by
  intro heap mpOutcome slabOutcome fresh
  rcases representable.geometry with ⟨geometry, size, count, room⟩
  by_cases failed : mpOutcome = none ∨ slabOutcome = none
  · rcases argoMemPoolCreate_none failed with ⟨heap', created⟩
    exact ⟨heap', none, created, by simp⟩
  · rw [not_or] at failed
    obtain ⟨mpAllocation, rfl⟩ := Option.ne_none_iff_exists'.mp failed.1
    obtain ⟨slabAllocation, rfl⟩ := Option.ne_none_iff_exists'.mp failed.2
    rcases argoMemPoolCreate_spec geometry size count fresh with
      ⟨heap', mp, created, represents⟩
    refine ⟨heap', some mp, created, ?_⟩
    rintro mp' ⟨⟩
    have fits : geometry.Fits mp := represents.fits
    have slabCnt : mp.mpSlabCnt.toNat = 1 := represents.count
    rcases represents.live 0 (by dsimp only; omega) with ⟨block, contents, found, live, filled⟩
    refine ⟨?_, ?_, ?_, ?_, block, contents, found, live, ?_, ?_⟩ <;>
      simp only [fits.1, fits.2]
    · exact geometry.aligned
    · exact room
    · exact geometry.nonempty
    · exact geometry.capped
    · exact filled
    · intro index inSlab
      have := geometry.metadata_inside inSlab
      have := geometry.holdsMetadata
      rw [filled]
      omega

/-- Creation gives usable pools for exactly the representable requests. -/
theorem createsUsable_iff (objSz objCnt : UInt32) :
    CreatesUsable objSz objCnt ↔ Representable objSz objCnt := by
  constructor
  · intro usable
    rcases usable _ _ _ (createFresh_of_empty (fun _ => 0) fun _ => 0) with
      ⟨heap', pool, created, usablePool⟩
    obtain ⟨mp, rfl⟩ := argoMemPoolCreate_pool created
    rcases argoMemPoolCreate_some created with ⟨size, count, _, _⟩
    rcases usablePool mp rfl with ⟨_, room, nonempty, capped, _⟩
    rw [count, adjusted_cnt_toNat, ← size] at nonempty capped
    rw [size, adjusted_sz_toNat] at room
    have unwrapped : mp.mpObjSz.toNat = exactObjSz objSz := by
      rw [size, adjusted_sz_toNat, exactObjSz]
      omega
    simp only [unwrapped] at nonempty capped
    have spec := exactObjSz_spec objSz
    by_cases above : 2 ^ 28 < exactObjSz objSz * objCnt.toNat % 2 ^ 32
    · rw [if_pos above] at nonempty
      refine ⟨(Nat.one_le_div_iff (by omega)).mp nonempty, ?_, Or.inr above⟩
      by_contra none
      have zero : objCnt.toNat = 0 := by omega
      rw [zero] at above
      omega
    · rw [if_neg above] at nonempty capped
      exact ⟨le_trans (Nat.le_mul_of_pos_right _ nonempty) capped, nonempty, Or.inl capped⟩
  · exact Representable.createsUsable

/-- A request for one object of `2 ^ 32 - 1` bytes gets a pool of 8-byte
objects. -/
theorem not_createsUsable_of_wrapped_size :
    (∃ heap' mp, argoMemPoolCreate 4294967295 1 (some ⟨0, fun _ => 0⟩) (some ⟨1, fun _ => 0⟩)
        (fun _ => none) = some (heap', some mp) ∧ mp.mpObjSz.toNat = 8) ∧
      ¬CreatesUsable 4294967295 1 := by
  have fresh := createFresh_of_empty (fun _ => 0) fun _ => 0
  rcases argoMemPoolCreate_spec ⟨8, 1, by decide, by decide, by decide, by decide⟩
      (show (mpAdjustSizeAndCount 4294967295 1).1.toNat = 8 by decide) (by decide) fresh with
    ⟨heap', mp, created, represents⟩
  have size : mp.mpObjSz.toNat = 8 := represents.fits.1
  refine ⟨⟨heap', mp, created, size⟩, fun usable => ?_⟩
  rcases usable _ _ _ fresh with ⟨_, _, created', usablePool⟩
  rw [created] at created'
  obtain ⟨rfl, rfl⟩ := Prod.mk.inj (Option.some.inj created')
  have room := (usablePool mp rfl).room
  rw [size] at room
  exact absurd room (by decide)

end Tpt.MemPool
