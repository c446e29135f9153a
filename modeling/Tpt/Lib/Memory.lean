import Mathlib.Logic.Function.Basic
import Mathlib.Tactic

/-!
Byte-addressed memory made of separately allocated blocks.

A pointer is a block together with a byte offset.  Every access is checked:
`none` stands for an access outside a live block, which C leaves undefined.
Words are little-endian; nothing below depends on that choice except that a
word read back is the word that was written.
-/

namespace Tpt.Memory

/-- The byte stored at every offset of a block. -/
abbrev Bytes := Nat → UInt8

def readWord (bytes : Bytes) (offset : Nat) : Nat → Nat
  | 0 => 0
  | width + 1 => (bytes offset).toNat + 256 * readWord bytes (offset + 1) width

def writeWord (bytes : Bytes) (offset width value : Nat) : Bytes :=
  fun index =>
    if offset ≤ index ∧ index < offset + width then
      UInt8.ofNat (value / 256 ^ (index - offset))
    else
      bytes index

theorem writeWord_outside
    (bytes : Bytes) (offset width value : Nat) {index : Nat}
    (outside : index < offset ∨ offset + width ≤ index) :
    writeWord bytes offset width value index = bytes index := by
  have notCovered : ¬(offset ≤ index ∧ index < offset + width) := by omega
  simp [writeWord, notCovered]

theorem readWord_congr
    {bytes bytes' : Bytes} {offset width : Nat}
    (agree : ∀ index, offset ≤ index → index < offset + width →
      bytes' index = bytes index) :
    readWord bytes' offset width = readWord bytes offset width := by
  induction width generalizing offset with
  | zero => rfl
  | succ width inductionHypothesis =>
      have first := agree offset (by omega) (by omega)
      have rest : readWord bytes' (offset + 1) width = readWord bytes (offset + 1) width :=
        inductionHypothesis fun index lower upper => agree index (by omega) (by omega)
      simp [readWord, first, rest]

theorem readWord_writeWord_disjoint
    (bytes : Bytes) (offset width value : Nat) {other otherWidth : Nat}
    (disjoint : other + otherWidth ≤ offset ∨ offset + width ≤ other) :
    readWord (writeWord bytes offset width value) other otherWidth =
      readWord bytes other otherWidth := by
  apply readWord_congr
  intro index lower upper
  exact writeWord_outside bytes offset width value (by omega)

/-- A word whose bytes are the base-256 digits of `value` reads as `value`. -/
theorem readWord_of_digits
    (bytes : Bytes) (offset width value : Nat)
    (digits : ∀ index, index < width →
      bytes (offset + index) = UInt8.ofNat (value / 256 ^ index)) :
    readWord bytes offset width = value % 256 ^ width := by
  induction width generalizing offset value with
  | zero => simp [readWord, Nat.mod_one]
  | succ width inductionHypothesis =>
      have first : bytes offset = UInt8.ofNat value := by
        simpa using digits 0 (by omega)
      have rest : readWord bytes (offset + 1) width =
          value / 256 % 256 ^ width := by
        apply inductionHypothesis
        intro index bounded
        have digit := digits (index + 1) (by omega)
        rw [Nat.pow_succ', ← Nat.div_div_eq_div_mul] at digit
        rw [← digit]
        congr 1
        omega
      rw [readWord, first, rest, Nat.pow_succ', Nat.mod_mul]
      simp

@[simp]
theorem readWord_writeWord
    (bytes : Bytes) (offset width value : Nat) :
    readWord (writeWord bytes offset width value) offset width =
      value % 256 ^ width := by
  apply readWord_of_digits
  intro index bounded
  simp [writeWord, bounded]

structure Block where
  size : Nat
  bytes : Bytes

structure Ptr where
  block : Nat
  offset : Nat
  deriving DecidableEq, Repr

def Ptr.add (pointer : Ptr) (bytes : Nat) : Ptr :=
  { pointer with offset := pointer.offset + bytes }

@[simp]
theorem Ptr.add_offset (pointer : Ptr) (bytes : Nat) :
    (pointer.add bytes).offset = pointer.offset + bytes := rfl

/-- The live blocks by identity. -/
abbrev Heap := Nat → Option Block

theorem distinct_update {Index : Type} [DecidableEq Index] {table : Index → Option Nat}
    (distinct : ∀ i j block, table i = some block → table j = some block → i = j)
    (slot : Index) {added : Nat} (absent : ∀ i, table i ≠ some added) (i j : Index) (block : Nat)
    (found : Function.update table slot (some added) i = some block)
    (found' : Function.update table slot (some added) j = some block) : i = j := by
  rw [Function.update_apply] at found found'
  split at found
  next last =>
    split at found'
    next last' => exact last.trans last'.symm
    next => exact absurd (found'.trans found.symm) (absent j)
  next =>
    split at found'
    next => exact absurd (found.trans found'.symm) (absent i)
    next => exact distinct i j block found found'

namespace Heap

/-- The byte at `pointer`, when it lies inside a live block. -/
def byte? (heap : Heap) (pointer : Ptr) : Option UInt8 :=
  match heap pointer.block with
  | some block =>
      if pointer.offset < block.size then some (block.bytes pointer.offset) else none
  | none => none

def load64 (heap : Heap) (pointer : Ptr) : Option UInt64 :=
  match heap pointer.block with
  | some block =>
      if pointer.offset + 8 ≤ block.size then
        some (UInt64.ofNat (readWord block.bytes pointer.offset 8))
      else
        none
  | none => none

def setBytes (heap : Heap) (id : Nat) (block : Block) (bytes : Bytes) : Heap :=
  Function.update heap id (some { block with bytes := bytes })

def store64 (heap : Heap) (pointer : Ptr) (value : UInt64) : Option Heap :=
  match heap pointer.block with
  | some block =>
      if pointer.offset + 8 ≤ block.size then
        some (heap.setBytes pointer.block block
          (writeWord block.bytes pointer.offset 8 value.toNat))
      else
        none
  | none => none

def store8 (heap : Heap) (pointer : Ptr) (value : UInt8) : Option Heap :=
  match heap pointer.block with
  | some block =>
      if pointer.offset < block.size then
        some (heap.setBytes pointer.block block
          (Function.update block.bytes pointer.offset value))
      else
        none
  | none => none

def allocate (heap : Heap) (id size : Nat) (bytes : Bytes) : Heap :=
  Function.update heap id (some { size, bytes })

def free (heap : Heap) (id : Nat) : Heap :=
  Function.update heap id none

/-- Give a live block back; freeing any other block is undefined. -/
def free? (heap : Heap) (id : Nat) : Option Heap :=
  match heap id with
  | some _ => some (heap.free id)
  | none => none

def freeAll : List Nat → Heap → Option Heap
  | [], heap => some heap
  | id :: ids, heap => (heap.free? id).bind (freeAll ids)

/-- Writes keep the set of live blocks and their sizes. -/
def SameShape (heap heap' : Heap) : Prop :=
  ∀ id, (heap' id).map Block.size = (heap id).map Block.size

theorem SameShape.refl (heap : Heap) : heap.SameShape heap := fun _ => rfl

theorem SameShape.trans {first second third : Heap}
    (left : first.SameShape second) (right : second.SameShape third) :
    first.SameShape third := fun id => (right id).trans (left id)

theorem SameShape.live {heap heap' : Heap} (shape : heap.SameShape heap')
    {id : Nat} {block : Block} (live : heap id = some block) :
    ∃ block', heap' id = some block' ∧ block'.size = block.size := by
  have sizes := shape id
  rw [live] at sizes
  simpa using sizes

theorem SameShape.ne_none {heap heap' : Heap} (shape : heap.SameShape heap') {id : Nat}
    (live : heap id ≠ none) : heap' id ≠ none := by
  obtain ⟨block, found⟩ := Option.ne_none_iff_exists'.mp live
  obtain ⟨block', found', _⟩ := shape.live found
  simp [found']

theorem setBytes_sameShape {heap : Heap} {id : Nat} {block : Block}
    (live : heap id = some block) (bytes : Bytes) :
    heap.SameShape (heap.setBytes id block bytes) := by
  intro other
  by_cases same : other = id
  · subst other
    simp [setBytes, live]
  · simp [setBytes, same]

theorem store64_eq_some_iff
    {heap heap' : Heap} {pointer : Ptr} {value : UInt64} :
    heap.store64 pointer value = some heap' ↔
      ∃ block, heap pointer.block = some block ∧
        pointer.offset + 8 ≤ block.size ∧
        heap' = heap.setBytes pointer.block block
          (writeWord block.bytes pointer.offset 8 value.toNat) := by
  unfold store64
  cases live : heap pointer.block with
  | none => simp
  | some block => by_cases inside : pointer.offset + 8 ≤ block.size <;> simp [inside, eq_comm]

theorem store8_eq_some_iff
    {heap heap' : Heap} {pointer : Ptr} {value : UInt8} :
    heap.store8 pointer value = some heap' ↔
      ∃ block, heap pointer.block = some block ∧
        pointer.offset < block.size ∧
        heap' = heap.setBytes pointer.block block
          (Function.update block.bytes pointer.offset value) := by
  unfold store8
  cases live : heap pointer.block with
  | none => simp
  | some block => by_cases inside : pointer.offset < block.size <;> simp [inside, eq_comm]

theorem store64_sameShape {heap heap' : Heap} {pointer : Ptr} {value : UInt64}
    (stored : heap.store64 pointer value = some heap') :
    heap.SameShape heap' := by
  rw [store64_eq_some_iff] at stored
  obtain ⟨block, live, _, rfl⟩ := stored
  exact setBytes_sameShape live _

theorem store8_sameShape {heap heap' : Heap} {pointer : Ptr} {value : UInt8}
    (stored : heap.store8 pointer value = some heap') :
    heap.SameShape heap' := by
  rw [store8_eq_some_iff] at stored
  obtain ⟨block, live, _, rfl⟩ := stored
  exact setBytes_sameShape live _

theorem store64_others {heap heap' : Heap} {pointer : Ptr} {value : UInt64}
    (stored : heap.store64 pointer value = some heap') :
    ∀ id, id ≠ pointer.block → heap' id = heap id := by
  rw [store64_eq_some_iff] at stored
  obtain ⟨block, _, _, rfl⟩ := stored
  intro id different
  simp [setBytes, different]

theorem store64_isSome {heap : Heap} (pointer : Ptr) {block : Block}
    (live : heap pointer.block = some block)
    (inside : pointer.offset + 8 ≤ block.size) (value : UInt64) :
    ∃ heap', heap.store64 pointer value = some heap' :=
  ⟨_, store64_eq_some_iff.mpr ⟨block, live, inside, rfl⟩⟩

theorem load64_store64 {heap heap' : Heap} {pointer : Ptr} {value : UInt64}
    (stored : heap.store64 pointer value = some heap') :
    heap'.load64 pointer = some value := by
  rw [store64_eq_some_iff] at stored
  obtain ⟨block, live, inside, rfl⟩ := stored
  simp [load64, setBytes, inside]

theorem load64_store64_disjoint
    {heap heap' : Heap} {pointer other : Ptr} {value : UInt64}
    (stored : heap.store64 pointer value = some heap')
    (disjoint : other.block = pointer.block →
      other.offset + 8 ≤ pointer.offset ∨ pointer.offset + 8 ≤ other.offset) :
    heap'.load64 other = heap.load64 other := by
  rw [store64_eq_some_iff] at stored
  obtain ⟨block, live, inside, rfl⟩ := stored
  by_cases same : other.block = pointer.block
  · simp [load64, setBytes, same, live,
      readWord_writeWord_disjoint _ _ _ _ (disjoint same)]
  · simp [load64, setBytes, same]

theorem byte?_store64_disjoint
    {heap heap' : Heap} {pointer other : Ptr} {value : UInt64}
    (stored : heap.store64 pointer value = some heap')
    (disjoint : other.block = pointer.block →
      other.offset < pointer.offset ∨ pointer.offset + 8 ≤ other.offset) :
    heap'.byte? other = heap.byte? other := by
  rw [store64_eq_some_iff] at stored
  obtain ⟨block, live, inside, rfl⟩ := stored
  by_cases same : other.block = pointer.block
  · simp [byte?, setBytes, same, live, writeWord_outside _ _ _ _ (disjoint same)]
  · simp [byte?, setBytes, same]

theorem load64_store8_disjoint
    {heap heap' : Heap} {pointer other : Ptr} {value : UInt8}
    (stored : heap.store8 pointer value = some heap')
    (disjoint : other.block = pointer.block →
      pointer.offset < other.offset ∨ other.offset + 8 ≤ pointer.offset) :
    heap'.load64 other = heap.load64 other := by
  rw [store8_eq_some_iff] at stored
  obtain ⟨block, live, inside, rfl⟩ := stored
  by_cases same : other.block = pointer.block
  · have unchanged : readWord (Function.update block.bytes pointer.offset value)
        other.offset 8 = readWord block.bytes other.offset 8 := by
      apply readWord_congr
      intro index lower upper
      have := disjoint same
      exact Function.update_of_ne (by omega) _ _
    simp [load64, setBytes, same, live, unchanged]
  · simp [load64, setBytes, same]

@[simp]
theorem allocate_self (heap : Heap) (id size : Nat) (bytes : Bytes) :
    heap.allocate id size bytes id = some { size, bytes } := by
  simp [allocate]

theorem allocate_of_ne (heap : Heap) {id other : Nat} (size : Nat) (bytes : Bytes)
    (different : other ≠ id) : heap.allocate id size bytes other = heap other := by
  simp [allocate, different]

theorem free_allocate {heap : Heap} {id : Nat} (unused : heap id = none) (size : Nat)
    (bytes : Bytes) : (heap.allocate id size bytes).free id = heap := by
  rw [free, allocate, Function.update_idem, ← unused, Function.update_eq_self]

theorem free?_of_live {heap : Heap} {id : Nat} (live : heap id ≠ none) :
    heap.free? id = some (heap.free id) := by
  obtain ⟨block, found⟩ := Option.ne_none_iff_exists'.mp live
  simp [free?, found]

theorem freeAll_append (ids ids' : List Nat) (heap : Heap) :
    heap.freeAll (ids ++ ids') = (heap.freeAll ids).bind fun heap => heap.freeAll ids' := by
  induction ids generalizing heap with
  | nil => rfl
  | cons id ids inductionHypothesis =>
      simp only [List.cons_append, freeAll, Option.bind_assoc]
      congr 1
      funext heap'
      exact inductionHypothesis heap'

/-- Distinct live blocks can all be given back, and nothing else changes. -/
theorem freeAll_of_nodup {ids : List Nat} {heap : Heap}
    (distinct : ids.Nodup) (live : ∀ id ∈ ids, heap id ≠ none) :
    heap.freeAll ids = some fun id => if id ∈ ids then none else heap id := by
  induction ids generalizing heap with
  | nil => simp [freeAll]
  | cons id ids inductionHypothesis =>
      obtain ⟨once, distinct⟩ := List.nodup_cons.mp distinct
      have stillLive : ∀ other ∈ ids, heap.free id other ≠ none := by
        intro other membership
        have different : other ≠ id := by
          rintro rfl
          exact once membership
        rw [free, Function.update_of_ne different]
        exact live other (List.mem_cons_of_mem id membership)
      rw [freeAll, free?_of_live (live id List.mem_cons_self), Option.bind_some,
        inductionHypothesis distinct stillLive]
      congr 1
      funext other
      by_cases same : other = id
      · subst other
        simp [free]
      · simp [free, same]

theorem load64_eq_of_block {heap heap' : Heap} {pointer : Ptr}
    (unchanged : heap' pointer.block = heap pointer.block) :
    heap'.load64 pointer = heap.load64 pointer := by
  simp [load64, unchanged]

theorem byte?_eq_of_block {heap heap' : Heap} {pointer : Ptr}
    (unchanged : heap' pointer.block = heap pointer.block) :
    heap'.byte? pointer = heap.byte? pointer := by
  simp [byte?, unchanged]

end Heap

end Tpt.Memory
