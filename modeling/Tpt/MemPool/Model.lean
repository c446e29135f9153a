import Tpt.Lib.Memory

/-!
# The fixed-size object pool

Model of `system/mem_pool/argo_mem_pool.c`.  A pool hands out equal-sized
objects cut from slabs.  The first eight bytes of every object hold a metadata
word: the link to the next free object while the object is free, and the
object's own position while it is outstanding.

`uint32_t` and `uint64_t` values are `UInt32` and `UInt64`, so all arithmetic
wraps as in the source.  `ARGO_ALLOC` is not part of the repository: an
`Option Allocation` passed to each call says whether it returns `NULL` or
which block, with which contents.  The outer `none` of a result is undefined
behaviour: an access outside a live block or outside `slabs`.
-/

namespace Tpt.MemPool

open Memory

abbrev mpMetadataSz : Nat := 8
def mpOffsetBits : UInt64 := 28
def mpOffsetMask : UInt64 := ((1 : UInt64) <<< mpOffsetBits) - 1
def mpOffsetInvalid : UInt64 := mpOffsetMask
def mpSlabSize : UInt32 := (1 : UInt32) <<< (28 : UInt32)
abbrev mpSlabsMax : Nat := 4096

/-- `struct argo_mem_pool`; a `NULL` slab is `none`. -/
structure ArgoMemPool where
  /-- The block that holds the structure itself. -/
  self : Nat
  slabs : Fin mpSlabsMax → Option Nat
  mpFreeNext : UInt64
  mpSlabCnt : UInt64
  mpObjSz : UInt32
  mpObjCnt : UInt32

structure PoolState where
  heap : Heap
  mp : ArgoMemPool

/-- A block returned by `ARGO_ALLOC`, with whatever it happens to contain. -/
structure Allocation where
  block : Nat
  bytes : Bytes

/-- `ARGO_ALLOC` returns `NULL` or a block that is not in use. -/
def Fresh (heap : Heap) (outcome : Option Allocation) : Prop :=
  ∀ allocation, outcome = some allocation → heap allocation.block = none

def sizeofArgoMemPool : Nat := mpSlabsMax * 8 + 8 + 8 + 4 + 4

/-- The loop of `__mp_free_list_init`, with the number of iterations left. -/
def mpFreeListInitLoop (objSz : UInt32) (slab : UInt64) :
    Nat → Ptr → UInt64 → Heap → Option (Ptr × Heap)
  | 0, addr, _, heap => some (addr, heap)
  | iterations + 1, addr, nextFree, heap =>
      let nextFree := nextFree + objSz.toUInt64
      match heap.store64 addr (slab ||| nextFree) with
      | none => none
      | some heap =>
          mpFreeListInitLoop objSz slab iterations (addr.add objSz.toNat) nextFree heap

/-- `__mp_free_list_init`.  The bound `obj_cnt - 1` is an unsigned
subtraction, so it wraps for an empty slab. -/
def mpFreeListInit (addr : Ptr) (objSz objCnt : UInt32) (slabInx : UInt64)
    (heap : Heap) : Option Heap :=
  let slab := slabInx <<< mpOffsetBits
  match mpFreeListInitLoop objSz slab (objCnt - 1).toNat addr 0 heap with
  | none => none
  | some (addr, heap) => heap.store64 addr (slab ||| mpOffsetInvalid)

def mpAdjustSizeAndCount (sz cnt : UInt32) : UInt32 × UInt32 :=
  let sz := sz + 8
  let sz := (sz + 7) &&& (-8)
  if sz * cnt > mpSlabSize then
    (sz, mpSlabSize / sz)
  else
    (sz, cnt)

/-- The number of bytes `__mp_create_new_slab` requests from `ARGO_ALLOC`. -/
def mpSlabBytes (mp : ArgoMemPool) : UInt32 := mp.mpObjSz * mp.mpObjCnt

def mpCreateNewSlab (outcome : Option Allocation) (state : PoolState) :
    Option (Int × PoolState) :=
  let mp := state.mp
  let slabCnt := mp.mpSlabCnt
  if inArray : slabCnt.toNat < mpSlabsMax then
    match outcome with
    | none =>
        some (1, { state with
          mp := { mp with slabs := Function.update mp.slabs ⟨slabCnt.toNat, inArray⟩ none } })
    | some allocation =>
        let heap := state.heap.allocate allocation.block (mpSlabBytes mp).toNat allocation.bytes
        match mpFreeListInit ⟨allocation.block, 0⟩ mp.mpObjSz mp.mpObjCnt slabCnt heap with
        | none => none
        | some heap =>
            some (0, {
              heap := heap
              mp := { mp with
                slabs := Function.update mp.slabs ⟨slabCnt.toNat, inArray⟩
                  (some allocation.block)
                mpFreeNext := slabCnt <<< mpOffsetBits
                mpSlabCnt := slabCnt + 1 } })
  else
    none

/-- The pool structure after `memset` and the two assignments. -/
def zeroedPool (self : Nat) (objSz objCnt : UInt32) : ArgoMemPool :=
  { self
    slabs := fun _ => none
    mpFreeNext := 0
    mpSlabCnt := 0
    mpObjSz := objSz
    mpObjCnt := objCnt }

/-- `argo_mem_pool_create`.  The heap is returned even when the pool is
`NULL`, because the structure may have been allocated and freed again. -/
def argoMemPoolCreate (objSz objCnt : UInt32)
    (mpOutcome slabOutcome : Option Allocation) (heap : Heap) :
    Option (Heap × Option ArgoMemPool) :=
  let (objSz, objCnt) := mpAdjustSizeAndCount objSz objCnt
  match mpOutcome with
  | none => some (heap, none)
  | some allocation =>
      let heap := heap.allocate allocation.block sizeofArgoMemPool allocation.bytes
      let mp := zeroedPool allocation.block objSz objCnt
      match mpCreateNewSlab slabOutcome { heap, mp } with
      | none => none
      | some (ret, state) =>
          if ret ≠ 0 then
            some (state.heap.free allocation.block, none)
          else
            some (state.heap, some state.mp)

/-- The loop of `argo_mem_pool_destroy` over the slab indices that are left.
The first component lists the blocks given to `ARGO_FREE`, in order. -/
def argoMemPoolDestroyLoop (slabs : Fin mpSlabsMax → Option Nat) :
    List (Fin mpSlabsMax) → Heap → Option (List Nat × Heap)
  | [], heap => some ([], heap)
  | i :: rest, heap =>
      match slabs i with
      | none => argoMemPoolDestroyLoop slabs rest heap
      | some block =>
          match heap.free? block with
          | none => none
          | some heap =>
              match argoMemPoolDestroyLoop slabs rest heap with
              | none => none
              | some (freed, heap) => some (block :: freed, heap)

/-- `argo_mem_pool_destroy`, with the blocks it gives to `ARGO_FREE`. -/
def argoMemPoolDestroy (state : PoolState) : Option (List Nat × Heap) :=
  match argoMemPoolDestroyLoop state.mp.slabs (List.finRange mpSlabsMax) state.heap with
  | none => none
  | some (freed, heap) =>
      match heap.free? state.mp.self with
      | none => none
      | some heap => some (freed ++ [state.mp.self], heap)

def argoMemPoolExpand (outcome : Option Allocation) (state : PoolState) :
    Option (Int × PoolState) :=
  if state.mp.mpSlabCnt = UInt64.ofNat mpSlabsMax then
    some (1, state)
  else
    match mpCreateNewSlab outcome state with
    | none => none
    | some (ret, state) => some (if ret ≠ 0 then 2 else 0, state)

def mpMetadataToInxAndOffset (metadata : UInt64) : UInt64 × UInt32 :=
  (metadata >>> mpOffsetBits, (metadata &&& mpOffsetMask).toUInt32)

def mpInxAndOffsetToAddr (mp : ArgoMemPool) (inx : UInt64) (offset : UInt32) : Option Ptr :=
  if inArray : inx.toNat < mpSlabsMax then
    (mp.slabs ⟨inx.toNat, inArray⟩).map fun block => ⟨block, offset.toNat⟩
  else
    none

/-- The part of `argo_mem_pool_get` after the free list is known to be
non-empty: unlink the object, remember its position in it, hand it out. -/
def argoMemPoolUnlink (inx : UInt64) (offset : UInt32) (state : PoolState) :
    Option (Option Ptr × PoolState) :=
  match mpInxAndOffsetToAddr state.mp inx offset with
  | none => none
  | some addr =>
      match state.heap.load64 addr with
      | none => none
      | some link =>
          match state.heap.store64 addr ((inx <<< mpOffsetBits) ||| offset.toUInt64) with
          | none => none
          | some heap =>
              some (some (addr.add mpMetadataSz),
                { heap, mp := { state.mp with mpFreeNext := link } })

def argoMemPoolGet (outcome : Option Allocation) (state : PoolState) :
    Option (Option Ptr × PoolState) :=
  let (inx, offset) := mpMetadataToInxAndOffset state.mp.mpFreeNext
  if offset.toUInt64 = mpOffsetInvalid then
    match argoMemPoolExpand outcome state with
    | none => none
    | some (ret, state) =>
        if ret ≠ 0 then
          some (none, state)
        else
          let (inx, offset) := mpMetadataToInxAndOffset state.mp.mpFreeNext
          argoMemPoolUnlink inx offset state
  else
    argoMemPoolUnlink inx offset state

/-- `argo_mem_pool_put`.  An address in the first eight bytes of a block has
no metadata word before it. -/
def argoMemPoolPut (addr : Ptr) (state : PoolState) : Option PoolState :=
  if mpMetadataSz ≤ addr.offset then
    let metadata : Ptr := { addr with offset := addr.offset - mpMetadataSz }
    match state.heap.load64 metadata with
    | none => none
    | some newFree =>
        match state.heap.store64 metadata state.mp.mpFreeNext with
        | none => none
        | some heap => some { heap, mp := { state.mp with mpFreeNext := newFree } }
  else
    none

end Tpt.MemPool
