import Tpt.Lib.Memory

/-!
Runs of consecutive bytes in a block: reading and writing them, and `realloc`,
which keeps the bytes that fit and may give back another block.
-/

namespace Tpt.Memory

def slice (bytes : Bytes) : Nat → Nat → List UInt8
  | _, 0 => []
  | offset, length + 1 => bytes offset :: slice bytes (offset + 1) length

/-- Lay `data` over the bytes that start at `offset`. -/
def overlay (bytes : Bytes) (offset : Nat) (data : List UInt8) : Bytes :=
  fun index => if offset ≤ index then data[index - offset]?.getD (bytes index) else bytes index

section Slices

variable {bytes bytes' : Bytes} {offset length : Nat}

@[simp] theorem length_slice (bytes : Bytes) (offset length : Nat) :
    (slice bytes offset length).length = length := by
  induction length generalizing offset with
  | zero => rfl
  | succ length inductionHypothesis =>
      rw [slice, List.length_cons, inductionHypothesis]

theorem slice_congr
    (agree : ∀ index, offset ≤ index → index < offset + length → bytes' index = bytes index) :
    slice bytes' offset length = slice bytes offset length := by
  induction length generalizing offset with
  | zero => rfl
  | succ length inductionHypothesis =>
      rw [slice, slice, agree offset (Nat.le_refl _) (Nat.lt_add_of_pos_right (Nat.succ_pos _))]
      congr 1
      apply inductionHypothesis
      intro index lower upper
      exact agree index (Nat.le_of_succ_le lower) (by omega)

theorem slice_append (bytes : Bytes) (offset first second : Nat) :
    slice bytes offset (first + second) =
      slice bytes offset first ++ slice bytes (offset + first) second := by
  induction first generalizing offset with
  | zero => rw [Nat.zero_add, slice, List.nil_append, Nat.add_zero]
  | succ first inductionHypothesis =>
      rw [Nat.succ_add, slice, inductionHypothesis, slice, List.cons_append, Nat.add_assoc offset 1,
        Nat.add_comm 1 first]

theorem drop_slice (bytes : Bytes) {offset length count : Nat} (inside : count ≤ length) :
    (slice bytes offset length).drop count = slice bytes (offset + count) (length - count) := by
  obtain ⟨rest, rfl⟩ := Nat.exists_eq_add_of_le inside
  rw [slice_append, List.drop_left' (length_slice bytes offset count), Nat.add_sub_cancel_left]

theorem take_slice (bytes : Bytes) {offset length count : Nat} (inside : count ≤ length) :
    (slice bytes offset length).take count = slice bytes offset count := by
  obtain ⟨rest, rfl⟩ := Nat.exists_eq_add_of_le inside
  rw [slice_append, List.take_left' (length_slice bytes offset count)]

theorem slice_overlay (bytes : Bytes) (offset : Nat) (data : List UInt8) :
    slice (overlay bytes offset data) offset data.length = data := by
  induction data generalizing bytes offset with
  | nil => rfl
  | cons byte data inductionHypothesis =>
      have shifted : slice (overlay bytes offset (byte :: data)) (offset + 1) data.length =
          slice (overlay bytes (offset + 1) data) (offset + 1) data.length := by
        apply slice_congr
        intro index lower upper
        obtain ⟨distance, rfl⟩ := Nat.exists_eq_add_of_le lower
        have before : offset ≤ offset + 1 + distance := Nat.le_of_succ_le lower
        have index : offset + 1 + distance - offset = distance + 1 := by omega
        simp only [overlay, if_pos lower, if_pos before, Nat.add_sub_cancel_left, index,
          List.getElem?_cons_succ]
      rw [List.length_cons, slice, shifted, inductionHypothesis]
      simp [overlay]

theorem slice_overlay_append (bytes : Bytes) (length : Nat) (data : List UInt8) :
    slice (overlay bytes length data) 0 (length + data.length) =
      slice bytes 0 length ++ data := by
  have before : slice (overlay bytes length data) 0 length = slice bytes 0 length := by
    apply slice_congr
    intro index _ upper
    rw [Nat.zero_add] at upper
    exact if_neg (Nat.not_le.mpr upper)
  rw [slice_append, before, Nat.zero_add, slice_overlay]

end Slices

namespace Heap

def read? (heap : Heap) (pointer : Ptr) (length : Nat) : Option (List UInt8) :=
  match heap pointer.block with
  | some block =>
      if pointer.offset + length ≤ block.size then
        some (slice block.bytes pointer.offset length)
      else
        none
  | none => none

def write? (heap : Heap) (pointer : Ptr) (data : List UInt8) : Option Heap :=
  match heap pointer.block with
  | some block =>
      if pointer.offset + data.length ≤ block.size then
        some (heap.setBytes pointer.block block (overlay block.bytes pointer.offset data))
      else
        none
  | none => none

/-- The contents that `realloc` gives a block: what the old block held, and
`fill` beyond it. -/
def kept (heap : Heap) (old : Option Nat) (fill : Bytes) : Bytes :=
  match old.bind heap with
  | some block => fun index => if index < block.size then block.bytes index else fill index
  | none => fill

/-- `realloc(old, size)`, returning the block `new`. -/
def reallocate (heap : Heap) (old : Option Nat) (new size : Nat) (fill : Bytes) : Heap :=
  match old with
  | some id => (heap.free id).allocate new size (heap.kept old fill)
  | none => heap.allocate new size fill

section Slices

variable {heap : Heap} {block : Block} {id : Nat}

theorem read?_of_live
    {pointer : Ptr} {length : Nat} (live : heap pointer.block = some block)
    (inside : pointer.offset + length ≤ block.size) :
    heap.read? pointer length = some (slice block.bytes pointer.offset length) := by
  simp only [read?, live, if_pos inside]

theorem write?_of_live
    {pointer : Ptr} {data : List UInt8} (live : heap pointer.block = some block)
    (inside : pointer.offset + data.length ≤ block.size) :
    heap.write? pointer data =
      some (heap.setBytes pointer.block block (overlay block.bytes pointer.offset data)) := by
  simp only [write?, live, if_pos inside]

theorem reallocate_none (heap : Heap) (new size : Nat) (fill : Bytes) :
    heap.reallocate none new size fill new = some { size, bytes := fill } :=
  allocate_self heap new size fill

theorem reallocate_some
    (live : heap id = some block) (new size : Nat) (fill : Bytes) :
    ∃ bytes, heap.reallocate (some id) new size fill new = some { size, bytes } ∧
      ∀ length, length ≤ block.size → slice bytes 0 length = slice block.bytes 0 length := by
  refine ⟨heap.kept (some id) fill, allocate_self _ new size _, ?_⟩
  intro length inside
  apply slice_congr
  intro index _ upper
  rw [Nat.zero_add] at upper
  simp only [kept, Option.bind_some, live, if_pos (Nat.lt_of_lt_of_le upper inside)]

end Slices

end Heap

end Tpt.Memory
