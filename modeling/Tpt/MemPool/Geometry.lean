import Tpt.MemPool.Model

/-!
Arithmetic of the pool: packed metadata words, the geometries a slab can be
cut into, and what `__mp_adjust_size_and_count` computes from a request.
-/

namespace Tpt.MemPool

open Memory

@[simp]
theorem mpOffsetBits_toNat : mpOffsetBits.toNat = 28 := rfl

@[simp]
theorem mpOffsetMask_toNat : mpOffsetMask.toNat = 2 ^ 28 - 1 := by decide

@[simp]
theorem mpOffsetInvalid_toNat : mpOffsetInvalid.toNat = 2 ^ 28 - 1 := by decide

@[simp]
theorem mpSlabSize_toNat : mpSlabSize.toNat = 2 ^ 28 := by decide

/-- The metadata word for a byte offset of a slab. -/
def pack (slab offset : Nat) : UInt64 :=
  (UInt64.ofNat slab <<< mpOffsetBits) ||| UInt64.ofNat offset

theorem pack_toNat {slab offset : Nat}
    (slabBound : slab < 2 ^ 36) (offsetBound : offset < 2 ^ 28) :
    (pack slab offset).toNat = slab * 2 ^ 28 + offset := by
  have slabWord : slab % 2 ^ 64 = slab := Nat.mod_eq_of_lt (by omega)
  have offsetWord : offset % 2 ^ 64 = offset := Nat.mod_eq_of_lt (by omega)
  have shifted : slab <<< 28 % 2 ^ 64 = slab <<< 28 := by
    rw [Nat.shiftLeft_eq]
    exact Nat.mod_eq_of_lt (by omega)
  rw [pack, UInt64.toNat_or, UInt64.toNat_shiftLeft, UInt64.toNat_ofNat',
    UInt64.toNat_ofNat', mpOffsetBits_toNat, slabWord, offsetWord, shifted,
    ← Nat.shiftLeft_add_eq_or_of_lt offsetBound, Nat.shiftLeft_eq]

theorem inx_toNat (metadata : UInt64) :
    (mpMetadataToInxAndOffset metadata).1.toNat = metadata.toNat / 2 ^ 28 := by
  simp [mpMetadataToInxAndOffset, Nat.shiftRight_eq_div_pow]

theorem offset_toNat (metadata : UInt64) :
    (mpMetadataToInxAndOffset metadata).2.toNat = metadata.toNat % 2 ^ 28 := by
  have masked := Nat.and_two_pow_sub_one_eq_mod metadata.toNat 28
  rw [mpMetadataToInxAndOffset, UInt64.toNat_toUInt32, UInt64.toNat_and,
    mpOffsetMask_toNat, masked]
  omega

theorem offset_invalid_iff (metadata : UInt64) :
    (mpMetadataToInxAndOffset metadata).2.toUInt64 = mpOffsetInvalid ↔
      metadata.toNat % 2 ^ 28 = 2 ^ 28 - 1 := by
  rw [← UInt64.toNat_inj, UInt32.toNat_toUInt64, offset_toNat, mpOffsetInvalid_toNat]

/-- An object size and a count for which the metadata encoding works. -/
structure Geometry where
  sz : Nat
  cnt : Nat
  aligned : 8 ∣ sz
  holdsMetadata : 8 ≤ sz
  nonempty : 1 ≤ cnt
  capped : sz * cnt ≤ 2 ^ 28

namespace Geometry

variable (geometry : Geometry)

def Fits (mp : ArgoMemPool) : Prop :=
  mp.mpObjSz.toNat = geometry.sz ∧ mp.mpObjCnt.toNat = geometry.cnt

theorem metadata_inside {index : Nat} (inSlab : index < geometry.cnt) :
    index * geometry.sz + geometry.sz ≤ geometry.sz * geometry.cnt := by
  calc index * geometry.sz + geometry.sz
      = geometry.sz * (index + 1) := by ring
    _ ≤ geometry.sz * geometry.cnt := Nat.mul_le_mul_left _ inSlab

theorem apart {index other : Nat} (before : index < other) :
    index * geometry.sz + geometry.sz ≤ other * geometry.sz := by
  calc index * geometry.sz + geometry.sz
      = (index + 1) * geometry.sz := by ring
    _ ≤ other * geometry.sz := Nat.mul_le_mul_right _ before

theorem offset_aligned (index : Nat) : 8 ∣ index * geometry.sz :=
  Dvd.dvd.mul_left geometry.aligned index

theorem offset_bound {index : Nat} (inSlab : index < geometry.cnt) :
    index * geometry.sz + 8 ≤ 2 ^ 28 := by
  have inside := geometry.metadata_inside inSlab
  have := geometry.holdsMetadata
  have := geometry.capped
  omega

theorem index_eq_of_offset_eq {index other : Nat}
    (same : index * geometry.sz = other * geometry.sz) : index = other := by
  have := geometry.holdsMetadata
  exact Nat.eq_of_mul_eq_mul_right (by omega) same

end Geometry

theorem and_neg_eight_toNat (value : UInt32) :
    (value &&& (-8)).toNat = value.toNat / 8 * 8 := by
  have mask : (-8 : UInt32).toNat = (2 ^ 29 - 1) <<< 3 := by decide
  have shifted : value.toNat / 8 * 8 = (value.toNat >>> 3) <<< 3 := by
    rw [Nat.shiftRight_eq_div_pow, Nat.shiftLeft_eq]
  rw [UInt32.toNat_and, mask, shifted]
  apply Nat.eq_of_testBit_eq
  intro bit
  simp only [Nat.testBit_and, Nat.testBit_shiftLeft, Nat.testBit_shiftRight,
    Nat.testBit_two_pow_sub_one]
  by_cases kept : 3 ≤ bit
  · have position : 3 + (bit - 3) = bit := by omega
    rw [position]
    by_cases inWord : bit - 3 < 29
    · simp [kept, inWord]
    · have clear : value.toNat.testBit bit = false :=
        Nat.testBit_lt_two_pow (lt_of_lt_of_le value.toNat_lt
          (Nat.pow_le_pow_right (by decide) (by omega)))
      simp [clear]
  · simp [kept]

/-- The object size in exact arithmetic: the request and its metadata word,
rounded up to a multiple of eight. -/
def exactObjSz (objSz : UInt32) : Nat := (objSz.toNat + 15) / 8 * 8

theorem exactObjSz_spec (objSz : UInt32) :
    8 ∣ exactObjSz objSz ∧ objSz.toNat + 8 ≤ exactObjSz objSz ∧
      exactObjSz objSz ≤ objSz.toNat + 15 := by
  unfold exactObjSz
  omega

theorem adjusted_sz_toNat (objSz objCnt : UInt32) :
    (mpAdjustSizeAndCount objSz objCnt).1.toNat =
      (objSz.toNat + 15) % 2 ^ 32 / 8 * 8 := by
  have size : (mpAdjustSizeAndCount objSz objCnt).1 = (objSz + 8 + 7) &&& (-8) := by
    simp only [mpAdjustSizeAndCount]
    split <;> rfl
  rw [size, and_neg_eight_toNat]
  simp only [UInt32.toNat_add, UInt32.reduceToNat]
  omega

theorem adjusted_cnt_toNat (objSz objCnt : UInt32) :
    (mpAdjustSizeAndCount objSz objCnt).2.toNat =
      let sz := (mpAdjustSizeAndCount objSz objCnt).1.toNat
      if 2 ^ 28 < sz * objCnt.toNat % 2 ^ 32 then 2 ^ 28 / sz else objCnt.toNat := by
  simp only [mpAdjustSizeAndCount, gt_iff_lt, UInt32.lt_iff_toNat_lt, UInt32.toNat_mul,
    mpSlabSize_toNat]
  split
  · simp_all
  · simp_all

end Tpt.MemPool
