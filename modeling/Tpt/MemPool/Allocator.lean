import Mathlib.Data.Finset.Prod
import Mathlib.Data.List.Nodup
import Mathlib.Tactic

/-!
# The abstract allocator

What the pool is for, with no addresses and no metadata words: a stack of free
objects that grows by whole slabs when it runs empty.  An object is a slab
number and an index inside the slab.
-/

namespace Tpt.MemPool

abbrev Object := Nat × Nat

/-- The free objects, last freed first, and the number of slabs. -/
structure StackAllocator where
  free : List Object
  slabCnt : Nat
  deriving DecidableEq

/-- A call; `grow` says whether memory for a new slab would be available. -/
inductive Call where
  | get (grow : Bool)
  | put (object : Object)
  deriving DecidableEq

/-- The objects of one slab, in the order they are handed out. -/
def slabObjects (cnt slab : Nat) : List Object :=
  (List.range cnt).map fun index => (slab, index)

@[simp]
theorem mem_slabObjects {cnt slab : Nat} {object : Object} :
    object ∈ slabObjects cnt slab ↔ object.1 = slab ∧ object.2 < cnt := by
  rcases object with ⟨objectSlab, index⟩
  simp only [slabObjects, List.mem_map, List.mem_range, Prod.mk.injEq]
  constructor
  · rintro ⟨found, bounded, rfl, rfl⟩
    exact ⟨rfl, bounded⟩
  · rintro ⟨rfl, bounded⟩
    exact ⟨index, bounded, rfl, rfl⟩

theorem slabObjects_nodup (cnt slab : Nat) : (slabObjects cnt slab).Nodup :=
  List.nodup_range.map fun _ _ equality => (Prod.mk.inj equality).2

theorem slabObjects_eq_cons {cnt : Nat} (nonempty : 1 ≤ cnt) (slab : Nat) :
    ∃ rest, slabObjects cnt slab = (slab, 0) :: rest := by
  rcases Nat.exists_eq_add_of_le' nonempty with ⟨others, rfl⟩
  rw [slabObjects, List.range_succ_eq_map]
  exact ⟨_, rfl⟩

namespace StackAllocator

/-- Put a whole new slab on the stack, its first object on top. -/
def addSlab (cnt : Nat) (allocator : StackAllocator) : StackAllocator :=
  { free := slabObjects cnt allocator.slabCnt ++ allocator.free
    slabCnt := allocator.slabCnt + 1 }

def pop (allocator : StackAllocator) : Option Object × StackAllocator :=
  match allocator.free with
  | [] => (none, allocator)
  | object :: rest => (some object, { allocator with free := rest })

def put (object : Object) (allocator : StackAllocator) : StackAllocator :=
  { allocator with free := object :: allocator.free }

/-- Pop the top object, adding a slab first when the stack is empty and a slab
can be had.  Otherwise nothing happens. -/
def get (cnt limit : Nat) (grow : Bool) (allocator : StackAllocator) :
    Option Object × StackAllocator :=
  if allocator.free = [] ∧ allocator.slabCnt < limit ∧ grow = true then
    (allocator.addSlab cnt).pop
  else
    allocator.pop

def initial (cnt : Nat) : StackAllocator :=
  addSlab cnt { free := [], slabCnt := 0 }

/-- The allocator after a list of calls, the last call first, and what the
gets among them returned. -/
def run (cnt limit : Nat) : List Call → StackAllocator × List (Option Object)
  | [] => (initial cnt, [])
  | .get grow :: calls =>
      let (allocator, results) := run cnt limit calls
      let (result, allocator) := allocator.get cnt limit grow
      (allocator, result :: results)
  | .put object :: calls =>
      let (allocator, results) := run cnt limit calls
      (allocator.put object, results)

/-- Every object of every slab is free or outstanding, and only once. -/
structure Partition (cnt : Nat) (allocator : StackAllocator) (out : List Object) : Prop where
  nodup : (allocator.free ++ out).Nodup
  covers : ∀ object, object ∈ allocator.free ++ out ↔
    object.1 < allocator.slabCnt ∧ object.2 < cnt

variable {cnt : Nat} {allocator : StackAllocator} {out : List Object}

theorem Partition.pop (partition : Partition cnt allocator out)
    {object : Object} {rest : List Object} (top : allocator.free = object :: rest) :
    Partition cnt { allocator with free := rest } (object :: out) := by
  have moved : (rest ++ object :: out).Perm (allocator.free ++ out) := by
    rw [top]
    exact List.perm_middle
  exact ⟨moved.nodup_iff.mpr partition.nodup,
    fun other => (moved.mem_iff).trans (partition.covers other)⟩

theorem Partition.put (partition : Partition cnt allocator out)
    {object : Object} (held : object ∈ out) :
    Partition cnt (allocator.put object) (out.erase object) := by
  have moved : (object :: allocator.free ++ out.erase object).Perm
      (allocator.free ++ out) := by
    refine List.Perm.trans ?_ ((List.perm_cons_erase held).symm.append_left _)
    exact List.perm_middle.symm
  exact ⟨moved.nodup_iff.mpr partition.nodup,
    fun other => (moved.mem_iff).trans (partition.covers other)⟩

theorem Partition.addSlab (partition : Partition cnt allocator out) :
    Partition cnt (allocator.addSlab cnt) out := by
  have apart : ∀ object ∈ allocator.free ++ out, object.1 ≠ allocator.slabCnt := by
    intro object membership
    exact Nat.ne_of_lt ((partition.covers object).mp membership).1
  refine ⟨?_, ?_⟩
  · simp only [StackAllocator.addSlab, List.append_assoc]
    refine (slabObjects_nodup _ _).append partition.nodup ?_
    intro object inSlab old
    exact apart object old (mem_slabObjects.mp inSlab).1
  · intro object
    simp only [StackAllocator.addSlab, List.append_assoc]
    rw [List.mem_append, mem_slabObjects, partition.covers]
    omega

theorem Partition.length_eq (partition : Partition cnt allocator out) :
    allocator.free.length + out.length = allocator.slabCnt * cnt := by
  have objects : (allocator.free ++ out).toFinset =
      Finset.range allocator.slabCnt ×ˢ Finset.range cnt := by
    ext object
    rw [List.mem_toFinset, partition.covers]
    simp
  have cards := congrArg Finset.card objects
  rw [List.toFinset_card_of_nodup partition.nodup] at cards
  simpa using cards

theorem Partition.out_le (partition : Partition cnt allocator out) :
    out.length ≤ allocator.slabCnt * cnt :=
  le_trans (Nat.le_add_left _ _) (le_of_eq partition.length_eq)

/-- The slabs are just enough for the largest number of objects that were
outstanding at once. -/
structure PeakSized (cnt slabCnt peak : Nat) : Prop where
  enough : peak ≤ slabCnt * cnt
  needed : slabCnt = 1 ∨ (slabCnt - 1) * cnt < peak

theorem PeakSized.slabCnt_eq {slabCnt peak : Nat} (sized : PeakSized cnt slabCnt peak)
    (positive : 1 ≤ slabCnt) (nonempty : 1 ≤ cnt) :
    slabCnt = max 1 ((peak + cnt - 1) / cnt) := by
  rcases Nat.exists_eq_add_of_le' positive with ⟨others, rfl⟩
  have upper : (peak + cnt - 1) / cnt ≤ others + 1 := by
    rw [Nat.div_le_iff_le_mul_add_pred (by omega)]
    have := sized.enough
    have := Nat.mul_comm cnt (others + 1)
    omega
  rcases sized.needed with single | used
  · omega
  · have lower : others + 1 ≤ (peak + cnt - 1) / cnt := by
      rw [Nat.le_div_iff_mul_le (by omega), Nat.succ_mul]
      have : others + 1 - 1 = others := by omega
      rw [this] at used
      omega
    omega

theorem PeakSized.extend {slabCnt peak length : Nat} (sized : PeakSized cnt slabCnt peak)
    (fits : length ≤ slabCnt * cnt) : PeakSized cnt slabCnt (max peak length) := by
  refine ⟨max_le sized.enough fits, ?_⟩
  rcases sized.needed with single | used
  · exact Or.inl single
  · exact Or.inr (lt_of_lt_of_le used (le_max_left _ _))

theorem get_cases (nonempty : 1 ≤ cnt) (limit : Nat) (grow : Bool)
    (allocator : StackAllocator) :
    (∃ object rest, allocator.free = object :: rest ∧
      allocator.get cnt limit grow = (some object, { allocator with free := rest })) ∨
    (allocator.free = [] ∧ ∃ rest, slabObjects cnt allocator.slabCnt = (allocator.slabCnt, 0) :: rest ∧
      allocator.get cnt limit grow =
        (some (allocator.slabCnt, 0), { free := rest, slabCnt := allocator.slabCnt + 1 })) ∨
    (allocator.free = [] ∧ allocator.get cnt limit grow = (none, allocator)) := by
  cases free : allocator.free with
  | cons object rest =>
      exact Or.inl ⟨object, rest, rfl, by simp [get, pop, free]⟩
  | nil =>
      by_cases grows : allocator.slabCnt < limit ∧ grow = true
      · rcases slabObjects_eq_cons nonempty allocator.slabCnt with ⟨rest, objects⟩
        exact Or.inr (Or.inl
          ⟨rfl, rest, objects, by simp [get, pop, free, grows, addSlab, objects]⟩)
      · exact Or.inr (Or.inr ⟨rfl, by simp only [get, free, true_and, if_neg grows, pop]⟩)

theorem slabCnt_le_get (nonempty : 1 ≤ cnt) (limit : Nat) (grow : Bool)
    (allocator : StackAllocator) :
    allocator.slabCnt ≤ (allocator.get cnt limit grow).2.slabCnt := by
  rcases get_cases nonempty limit grow allocator with
    ⟨_, _, _, step⟩ | ⟨_, _, _, step⟩ | ⟨_, step⟩ <;> simp [step]

/-- A get keeps the slabs sized for the peak: a slab is added only when every
object of the others is outstanding. -/
theorem PeakSized.get {limit peak : Nat} {grow : Bool} (nonempty : 1 ≤ cnt)
    (sized : PeakSized cnt allocator.slabCnt peak)
    (before : Partition cnt allocator out)
    (after : Partition cnt (allocator.get cnt limit grow).2
      ((allocator.get cnt limit grow).1.toList ++ out)) :
    PeakSized cnt (allocator.get cnt limit grow).2.slabCnt
      (max peak ((allocator.get cnt limit grow).1.toList ++ out).length) := by
  have total := before.length_eq
  have fits := after.out_le
  rcases get_cases nonempty limit grow allocator with
    ⟨object, rest, top, step⟩ | ⟨empty, rest, objects, step⟩ | ⟨empty, step⟩
  · rw [step] at fits ⊢
    exact sized.extend fits
  · rw [step] at fits ⊢
    rw [empty, List.length_nil] at total
    refine ⟨max_le ?_ fits, Or.inr (lt_of_lt_of_le ?_ (le_max_right _ _))⟩
    · exact le_trans sized.enough (Nat.mul_le_mul_right _ (Nat.le_succ _))
    · simp only [Nat.add_sub_cancel, Option.toList_some, List.singleton_append, List.length_cons]
      omega
  · rw [step] at fits ⊢
    exact sized.extend fits

end StackAllocator

end Tpt.MemPool
