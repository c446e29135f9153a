import Tpt.Lib.Slice

/-!
The readers of `read_write.c` and `async_read_write.c`.

A read transfers a number of bytes that the system chooses; both programs keep
that number in an `int`.  Reallocation succeeds.
-/

namespace Tpt

namespace Aio

open Memory

def allocSize : Nat := 4096

def reallocThreshold : Nat := 128

/-- The buffer of a reader: its block, and what the reader knows of it. -/
structure Buffer where
  block : Bytes
  allocated : Nat
  bufSize : Nat
  bufLen : Nat

structure Request where
  offset : Nat
  nbytes : Nat
  target : Nat
  buffer : Buffer

/-- The buffer after a read that transferred so many bytes. -/
def Request.transfer (request : Request) (file : List UInt8) (size : Nat) : Buffer :=
  { request.buffer with
    block := overlay request.buffer.block request.target ((file.drop request.offset).take size) }

/-- What both programs do with a positive result. -/
def Buffer.add (buffer : Buffer) (ret : Int32) : Buffer :=
  let bufLen := buffer.bufLen + ret.toNatClampNeg
  if buffer.bufSize - bufLen ≤ reallocThreshold then
    { block := buffer.block, allocated := buffer.bufSize * 2, bufSize := buffer.bufSize * 2, bufLen }
  else { buffer with bufLen }

/-- What a reader has done when it ends: its requests, its buffer, and what it
writes to the copy. -/
structure Outcome where
  requests : List Request
  buffer : Buffer
  copy : Option (List UInt8)

def Outcome.after (request : Request) (outcome : Outcome) : Outcome :=
  { outcome with requests := request :: outcome.requests }

def Buffer.content (buffer : Buffer) : List UInt8 := slice buffer.block 0 buffer.bufLen

/-- The state of the loop of `read_write.c`; the position is the descriptor's. -/
structure Reader where
  buffer : Buffer
  position : Nat

def Reader.request (reader : Reader) : Request :=
  ⟨reader.position, reader.buffer.bufSize - reader.buffer.bufLen, reader.buffer.bufLen,
    reader.buffer⟩

def Reader.turn (reader : Reader) (file : List UInt8) (size : Nat) : Option Reader :=
  let bytesRead := Int32.ofNat size
  if bytesRead ≤ 0 then none
  else
    some ⟨(reader.request.transfer file size).add bytesRead, reader.position + size⟩

/-- The loop; after these sizes it is told the end of the file. -/
def readLoop (file : List UInt8) : List Nat → Reader → Outcome
  | [], reader => ⟨[reader.request], reader.buffer, some reader.buffer.content⟩
  | size :: sizes, reader =>
      match reader.turn file size with
      | none =>
          let buffer := reader.request.transfer file size
          ⟨[reader.request], buffer, some buffer.content⟩
      | some next => (readLoop file sizes next).after reader.request

/-- `struct read_info`, with a request under way. -/
structure ReadInfo where
  buffer : Buffer
  aioOffset : Nat
  aioNbytes : Nat
  aioBuf : Nat

def ReadInfo.request (info : ReadInfo) : Request :=
  ⟨info.aioOffset, info.aioNbytes, info.aioBuf, info.buffer⟩

/-- What `read_callback` does: it ends, with or without a copy, or reads on. -/
inductive Called where
  | ends (copy : Option (List UInt8))
  | reads (info : ReadInfo)

def Called.copy : Called → Option (List UInt8)
  | .ends copy => copy
  | .reads _ => none

def readCallback (buffer : Buffer) (ret : Int32) : Called :=
  if ret < 0 then .ends none
  else if ret = 0 then .ends (some buffer.content)
  else
    let buffer := buffer.add ret
    .reads ⟨buffer, buffer.bufLen, buffer.bufSize - buffer.bufLen, buffer.bufLen⟩

def callbacks (file : List UInt8) : List Nat → ReadInfo → Outcome
  | [], info => ⟨[info.request], info.buffer, (readCallback info.buffer 0).copy⟩
  | size :: sizes, info =>
      let buffer := info.request.transfer file size
      match readCallback buffer (Int32.ofNat size) with
      | .ends copy => ⟨[info.request], buffer, copy⟩
      | .reads next => (callbacks file sizes next).after info.request

def newBuffer (fresh : Bytes) : Buffer := ⟨fresh, allocSize, allocSize, 0⟩

/-- `main` of `read_write.c`. -/
def syncRead (file : List UInt8) (fresh : Bytes) (sizes : List Nat) : Outcome :=
  readLoop file sizes ⟨newBuffer fresh, 0⟩

/-- `main` of `async_read_write.c`, and its callbacks. -/
def asyncRead (file : List UInt8) (fresh : Bytes) (sizes : List Nat) : Outcome :=
  callbacks file sizes ⟨newBuffer fresh, 0, allocSize, 0⟩

/-- The system can answer the reads of the loop with these sizes: each is
positive, and neither more than was asked for nor more than the file has left;
then the file is at its end. -/
def Answers (file : List UInt8) : List Nat → Reader → Prop
  | [], reader => reader.position = file.length
  | size :: sizes, reader =>
      0 < size ∧ size ≤ reader.request.nbytes ∧ reader.position + size ≤ file.length ∧
        ∀ next, reader.turn file size = some next → Answers file sizes next

/-- The two readers do the same, and get the file. -/
structure Agree (file : List UInt8) (sizes : List Nat) (sync async : Outcome) : Prop where
  same : sync = async
  reads : sync.requests.length = sizes.length + 1
  asks : ∀ request ∈ sync.requests, 0 < request.nbytes
  fits : ∀ request ∈ sync.requests, request.target + request.nbytes ≤ request.buffer.allocated
  content : sync.buffer.content = file
  copies : sync.copy = some file

def Reader.info (reader : Reader) : ReadInfo :=
  ⟨reader.buffer, reader.buffer.bufLen, reader.buffer.bufSize - reader.buffer.bufLen,
    reader.buffer.bufLen⟩

/-- What holds before a read: the buffer has the bytes in front of the position,
and more room than the threshold. -/
structure Ready (file : List UInt8) (reader : Reader) : Prop where
  position : reader.position = reader.buffer.bufLen
  allocated : reader.buffer.allocated = reader.buffer.bufSize
  room : reader.buffer.bufLen + reallocThreshold < reader.buffer.bufSize
  content : reader.buffer.content = file.take reader.buffer.bufLen

theorem toNatClampNeg_ofNat {size : Nat} (small : size < 2 ^ 31) :
    (Int32.ofNat size).toNatClampNeg = size := by
  rw [Int32.toNatClampNeg, Int32.toInt_ofNat_of_lt small, Int.toNat_natCast]

theorem toNatClampNeg_lt {size : Nat} (large : 2 ^ 31 ≤ size) :
    (Int32.ofNat size).toNatClampNeg < size := by
  have below := Int32.toInt_lt (Int32.ofNat size)
  rw [Int32.toNatClampNeg]
  omega

theorem ofNat_pos {size : Nat} (positive : 0 < size) (small : size < 2 ^ 31) :
    0 < Int32.ofNat size := by
  rw [Int32.lt_iff_toInt_lt, Int32.toInt_ofNat_of_lt small]
  exact Int.natCast_pos.mpr positive

section Buffers

variable {file : List UInt8} {buffer : Buffer} {ret : Int32}

@[simp]
theorem Buffer.add_block (buffer : Buffer) (ret : Int32) :
    (buffer.add ret).block = buffer.block := by
  rw [Buffer.add]
  split_ifs <;> rfl

@[simp]
theorem Buffer.add_bufLen (buffer : Buffer) (ret : Int32) :
    (buffer.add ret).bufLen = buffer.bufLen + ret.toNatClampNeg := by
  rw [Buffer.add]
  split_ifs <;> rfl

theorem Buffer.add_allocated (allocated : buffer.allocated = buffer.bufSize) :
    (buffer.add ret).allocated = (buffer.add ret).bufSize := by
  rw [Buffer.add]
  split_ifs
  · rfl
  · exact allocated

theorem Buffer.add_bufSize
    (full : buffer.bufSize - (buffer.bufLen + ret.toNatClampNeg) ≤ reallocThreshold) :
    (buffer.add ret).bufSize = buffer.bufSize * 2 := by
  rw [Buffer.add, if_pos full]

theorem Buffer.add_room
    (room : buffer.bufLen + reallocThreshold < buffer.bufSize)
    (fits : ret.toNatClampNeg ≤ buffer.bufSize - buffer.bufLen) :
    (buffer.add ret).bufLen + reallocThreshold < (buffer.add ret).bufSize := by
  rw [Buffer.add]
  split_ifs with full
  · change _ < buffer.bufSize * 2
    change buffer.bufLen + ret.toNatClampNeg + reallocThreshold < _
    omega
  · change buffer.bufLen + ret.toNatClampNeg + reallocThreshold < buffer.bufSize
    omega

end Buffers

section Steps

variable {file : List UInt8} {reader : Reader} {size : Nat}

def Reader.next (reader : Reader) (file : List UInt8) (size : Nat) : Reader :=
  ⟨(reader.request.transfer file size).add (Int32.ofNat size), reader.position + size⟩

theorem turn_eq_some (positive : 0 < Int32.ofNat size) :
    reader.turn file size = some (reader.next file size) ∧
      readCallback (reader.request.transfer file size) (Int32.ofNat size) =
        .reads (reader.next file size).info := by
  have notNegative : ¬ Int32.ofNat size < 0 := Int32.not_lt.mpr (Int32.le_of_lt positive)
  have notZero : Int32.ofNat size ≠ 0 := (Int32.ne_of_lt positive).symm
  constructor
  · exact if_neg (Int32.not_le.mpr positive)
  · rw [readCallback, if_neg notNegative, if_neg notZero]
    rfl

theorem Ready.request (ready : Ready file reader) : reader.info.request = reader.request := by
  rw [Reader.request, ready.position]
  rfl

theorem Ready.asks (ready : Ready file reader) : 0 < reader.request.nbytes :=
  Nat.sub_pos_of_lt ((Nat.le_add_right _ _).trans_lt ready.room)

theorem Ready.fits (ready : Ready file reader) :
    reader.request.target + reader.request.nbytes ≤ reader.request.buffer.allocated := by
  change reader.buffer.bufLen + (reader.buffer.bufSize - reader.buffer.bufLen) ≤
    reader.buffer.allocated
  rw [ready.allocated, Nat.add_sub_cancel' ((Nat.le_add_right _ _).trans ready.room.le)]

theorem Ready.next
    (ready : Ready file reader) (asked : size ≤ reader.request.nbytes)
    (left : reader.position + size ≤ file.length) (small : size < 2 ^ 31) :
    Ready file (reader.next file size) := by
  have ret := toNatClampNeg_ofNat small
  have bytes : ((file.drop reader.position).take size).length = size := by
    rw [List.length_take, List.length_drop]
    omega
  have bufLen : (reader.next file size).buffer.bufLen = reader.buffer.bufLen + size := by
    rw [Reader.next, Buffer.add_bufLen, ret]
    rfl
  refine ⟨?_, Buffer.add_allocated ready.allocated, ?_, ?_⟩
  · rw [bufLen, ← ready.position]
    rfl
  · exact Buffer.add_room ready.room (ret.trans_le asked)
  · have appended := slice_overlay_append reader.buffer.block reader.buffer.bufLen
      ((file.drop reader.position).take size)
    have block : (reader.request.transfer file size).block =
        overlay reader.buffer.block reader.buffer.bufLen
          ((file.drop reader.position).take size) := rfl
    rw [bytes] at appended
    rw [Buffer.content, bufLen, List.take_add, ← ready.content, Reader.next, Buffer.add_block,
      block, appended, ready.position]
    rfl

/-- A read of `2 ^ 31` bytes or more either ends the loop or leaves the two
programs at different places of the file. -/
theorem Ready.turn_of_large
    (ready : Ready file reader) (large : 2 ^ 31 ≤ size) :
    reader.turn file size = none ∨
      (reader.turn file size = some (reader.next file size) ∧
        readCallback (reader.request.transfer file size) (Int32.ofNat size) =
          .reads (reader.next file size).info ∧
        (reader.next file size).request.offset ≠ (reader.next file size).info.request.offset) := by
  by_cases stops : Int32.ofNat size ≤ 0
  · exact .inl (if_pos stops)
  · obtain ⟨turned, called⟩ := @turn_eq_some file reader size (Int32.not_le.mp stops)
    refine .inr ⟨turned, called, ?_⟩
    have fewer := toNatClampNeg_lt large
    have bufLen := Buffer.add_bufLen (reader.request.transfer file size) (Int32.ofNat size)
    change reader.position + size ≠ (reader.next file size).buffer.bufLen
    rw [Reader.next, bufLen, ready.position]
    exact Nat.ne_of_gt (Nat.add_lt_add_left fewer _)

end Steps

theorem head_readLoop (file : List UInt8) (sizes : List Nat) (reader : Reader) :
    (readLoop file sizes reader).requests.head? = some reader.request := by
  cases sizes with
  | nil => rfl
  | cons size sizes =>
      rw [readLoop]
      cases reader.turn file size <;> rfl

theorem head_callbacks (file : List UInt8) (sizes : List Nat) (info : ReadInfo) :
    (callbacks file sizes info).requests.head? = some info.request := by
  cases sizes with
  | nil => rfl
  | cons size sizes =>
      rw [callbacks]
      cases readCallback (info.request.transfer file size) (Int32.ofNat size) <;> rfl

theorem Outcome.after_injective
    {request : Request} {first second : Outcome}
    (same : first.after request = second.after request) :
    first = second := by
  obtain ⟨requests, buffer, copy⟩ := first
  obtain ⟨requests', buffer', copy'⟩ := second
  simp only [Outcome.after, Outcome.mk.injEq, List.cons.injEq, true_and] at same ⊢
  exact same

section Runs

variable {file : List UInt8} {reader : Reader} {sizes : List Nat}

theorem Ready.agree
    (ready : Ready file reader) (answers : Answers file sizes reader)
    (small : ∀ size ∈ sizes, size < 2 ^ 31) :
    Agree file sizes (readLoop file sizes reader) (callbacks file sizes reader.info) := by
  induction sizes generalizing reader with
  | nil =>
      have whole : reader.buffer.content = file := by
        rw [ready.content, ← ready.position, answers, List.take_length]
      rw [readLoop, callbacks, ready.request]
      refine ⟨rfl, rfl, ?_, ?_, whole, congrArg some whole⟩
      · exact List.forall_mem_singleton.mpr ready.asks
      · exact List.forall_mem_singleton.mpr ready.fits
  | cons size sizes inductionHypothesis =>
      obtain ⟨positive, asked, left, later⟩ := answers
      obtain ⟨smallHere, smallLater⟩ := List.forall_mem_cons.mp small
      obtain ⟨turned, called⟩ := @turn_eq_some file reader size (ofNat_pos positive smallHere)
      have rest := inductionHypothesis (ready.next asked left smallHere) (later _ turned) smallLater
      have loop : readLoop file (size :: sizes) reader =
          (readLoop file sizes (reader.next file size)).after reader.request := by
        rw [readLoop, turned]
      have chain : callbacks file (size :: sizes) reader.info =
          (callbacks file sizes (reader.next file size).info).after reader.request := by
        rw [callbacks, ready.request, called]
      rw [loop, chain]
      refine ⟨congrArg _ rest.same, congrArg Nat.succ rest.reads, ?_, ?_, rest.content,
        rest.copies⟩
      · exact List.forall_mem_cons.mpr ⟨ready.asks, rest.asks⟩
      · exact List.forall_mem_cons.mpr ⟨ready.fits, rest.fits⟩

theorem Ready.small
    (ready : Ready file reader) (answers : Answers file sizes reader)
    (same : readLoop file sizes reader = callbacks file sizes reader.info)
    (content : (readLoop file sizes reader).buffer.content = file) :
    ∀ size ∈ sizes, size < 2 ^ 31 := by
  induction sizes generalizing reader with
  | nil => exact fun size member => absurd member List.not_mem_nil
  | cons size sizes inductionHypothesis =>
      obtain ⟨positive, asked, left, later⟩ := answers
      rw [List.forall_mem_cons]
      by_cases small : size < 2 ^ 31
      · obtain ⟨turned, called⟩ := @turn_eq_some file reader size (ofNat_pos positive small)
        rw [readLoop, turned] at same content
        rw [callbacks, ready.request, called] at same
        exact ⟨small, inductionHypothesis (ready.next asked left small) (later _ turned)
          (Outcome.after_injective same) content⟩
      · rcases ready.turn_of_large (Nat.le_of_not_lt small) with stopped | ⟨turned, called, apart⟩
        · rw [readLoop, stopped] at content
          have lengths := congrArg List.length content
          rw [Buffer.content, length_slice] at lengths
          change reader.buffer.bufLen = file.length at lengths
          rw [ready.position] at left
          omega
        · rw [readLoop, turned, callbacks, ready.request, called] at same
          have heads := congrArg (·.requests.head?) (Outcome.after_injective same)
          rw [head_readLoop, head_callbacks] at heads
          exact absurd (congrArg Request.offset (Option.some.inj heads)) apart

end Runs

theorem ready_newBuffer (file : List UInt8) (fresh : Bytes) : Ready file ⟨newBuffer fresh, 0⟩ :=
  ⟨rfl, rfl, (by decide : 0 + reallocThreshold < allocSize), rfl⟩

structure Doubled (reader : Reader) (exp : Nat) : Prop where
  position : reader.position = 2 ^ exp
  bufLen : reader.buffer.bufLen = 2 ^ exp
  bufSize : reader.buffer.bufSize = 2 ^ (exp + 1)

theorem doubled_start {file : List UInt8} {fresh : Bytes} :
    Doubled (Reader.next ⟨newBuffer fresh, 0⟩ file (2 ^ 12)) 12 := by
  have ret : (Int32.ofNat (2 ^ 12)).toNatClampNeg = 2 ^ 12 := by decide
  refine ⟨Nat.zero_add _, ?_, ?_⟩
  · rw [Reader.next, Buffer.add_bufLen, ret]
    exact Nat.zero_add _
  · rw [Reader.next, Buffer.add_bufSize]
    · exact (by decide : allocSize * 2 = 2 ^ 13)
    · rw [ret]
      exact (by decide : allocSize - (0 + 2 ^ 12) ≤ reallocThreshold)

/-- The two programs read the file in the same way if and only if no read gives
`2 ^ 31` bytes or more. -/
theorem readers_agree_iff
    {file : List UInt8} {fresh : Bytes} {sizes : List Nat}
    (answers : Answers file sizes ⟨newBuffer fresh, 0⟩) :
    Agree file sizes (syncRead file fresh sizes) (asyncRead file fresh sizes) ↔
      ∀ size ∈ sizes, size < 2 ^ 31 := by
  have ready := ready_newBuffer file fresh
  exact ⟨fun agree => ready.small answers agree.same agree.content, ready.agree answers⟩

/-- A file of 5000 bytes is read in two pieces, and the buffer grows after the
first one. -/
theorem readers_agree_iff_growing :
    let file := List.replicate 5000 7
    (Reader.next ⟨newBuffer fun _ => 0, 0⟩ file (2 ^ 12)).buffer.bufSize = 2 ^ 13 ∧
      Agree file [2 ^ 12, 904] (syncRead file (fun _ => 0) [2 ^ 12, 904])
        (asyncRead file (fun _ => 0) [2 ^ 12, 904]) := by
  intro file
  have length : file.length = 5000 := List.length_replicate
  have grown : Doubled (Reader.next ⟨newBuffer fun _ => 0, 0⟩ file (2 ^ 12)) 12 := doubled_start
  have answers : Answers file [2 ^ 12, 904] ⟨newBuffer fun _ => 0, 0⟩ := by
    have asked : 2 ^ 12 ≤ allocSize - 0 := by decide
    have left : 0 + 2 ^ 12 ≤ file.length := length.symm ▸ (by decide)
    refine ⟨by decide, asked, left, fun next turned => ?_⟩
    rw [(@turn_eq_some file ⟨newBuffer fun _ => 0, 0⟩ (2 ^ 12) (by decide)).1] at turned
    obtain rfl := Option.some.inj turned
    refine ⟨by decide, ?_, ?_, fun last turned => ?_⟩
    · rw [Reader.request, grown.bufLen, grown.bufSize]
      decide
    · rw [grown.position, length]
      decide
    · rw [(turn_eq_some (ofNat_pos (by decide) (by decide))).1] at turned
      obtain rfl := Option.some.inj turned
      have position : 2 ^ 12 + 904 = file.length := length.symm
      rw [Answers, Reader.next, grown.position]
      exact position
  exact ⟨grown.bufSize, (readers_agree_iff answers).mpr (by decide)⟩

def doublings : Nat → Nat → List Nat
  | 0, _ => []
  | count + 1, exp => 2 ^ exp :: doublings count (exp + 1)

theorem Doubled.next
    {file : List UInt8} {reader : Reader} {exp : Nat} (doubled : Doubled reader exp)
    (small : exp < 31) : Doubled (reader.next file (2 ^ exp)) (exp + 1) := by
  have ret := toNatClampNeg_ofNat (Nat.pow_lt_pow_right (by decide : 1 < 2) small)
  have twice := (Nat.two_pow_succ exp).symm
  refine ⟨?_, ?_, ?_⟩
  · rw [Reader.next, doubled.position, twice]
  · rw [Reader.next, Buffer.add_bufLen, ret, ← twice]
    exact congrArg (· + 2 ^ exp) doubled.bufLen
  · have full : (reader.request.transfer file (2 ^ exp)).bufSize -
        ((reader.request.transfer file (2 ^ exp)).bufLen +
          (Int32.ofNat (2 ^ exp)).toNatClampNeg) ≤ reallocThreshold := by
      change reader.buffer.bufSize - (reader.buffer.bufLen + _) ≤ _
      rw [ret, doubled.bufLen, doubled.bufSize, twice, Nat.sub_self]
      exact Nat.zero_le _
    rw [Reader.next, Buffer.add_bufSize full, Nat.pow_succ]
    exact congrArg (· * 2) doubled.bufSize

theorem answers_doublings
    {file : List UInt8} {reader : Reader} {count exp : Nat} (doubled : Doubled reader exp)
    (whole : file.length = 2 ^ (exp + count)) (bound : exp + count ≤ 32) :
    Answers file (doublings count exp) reader := by
  induction count generalizing exp reader with
  | zero => exact doubled.position.trans whole.symm
  | succ count inductionHypothesis =>
      have twice := (Nat.two_pow_succ exp).symm
      have asked : 2 ^ exp ≤ reader.request.nbytes := by
        change 2 ^ exp ≤ reader.buffer.bufSize - reader.buffer.bufLen
        rw [doubled.bufLen, doubled.bufSize, ← twice, Nat.add_sub_cancel]
      have left : reader.position + 2 ^ exp ≤ file.length := by
        rw [doubled.position, twice, whole]
        exact Nat.pow_le_pow_right (by decide) (by omega)
      refine ⟨Nat.two_pow_pos exp, asked, left, fun next turned => ?_⟩
      rcases Nat.lt_or_ge exp 31 with small | large
      · have positive := ofNat_pos (Nat.two_pow_pos exp)
          (Nat.pow_lt_pow_right (by decide : 1 < 2) small)
        rw [(@turn_eq_some file reader (2 ^ exp) positive).1] at turned
        obtain rfl := Option.some.inj turned
        refine inductionHypothesis (doubled.next small) ?_ (by omega)
        rw [whole, Nat.add_right_comm, Nat.add_assoc]
      · obtain rfl : exp = 31 := by omega
        have negative : Int32.ofNat (2 ^ 31) ≤ 0 := by decide
        rw [Reader.turn, if_pos negative] at turned
        cases turned

theorem answers_full_buffers
    {file : List UInt8} {fresh : Bytes} (whole : file.length = 2 ^ 32) :
    Answers file (2 ^ 12 :: doublings 20 12) ⟨newBuffer fresh, 0⟩ := by
  have asked : 2 ^ 12 ≤ allocSize - 0 := by decide
  have left : 0 + 2 ^ 12 ≤ file.length := by
    rw [whole]
    decide
  refine ⟨by decide, asked, left, fun next turned => ?_⟩
  rw [(@turn_eq_some file ⟨newBuffer fresh, 0⟩ (2 ^ 12) (by decide)).1] at turned
  obtain rfl := Option.some.inj turned
  exact answers_doublings doubled_start whole (by decide)

/-- A file of `2 ^ 32` bytes, read in reads that fill the buffer. -/
theorem large_file_parts_readers :
    Answers (List.replicate (2 ^ 32) 0) (2 ^ 12 :: doublings 20 12) ⟨newBuffer (fun _ => 0), 0⟩ ∧
      ¬ Agree (List.replicate (2 ^ 32) 0) (2 ^ 12 :: doublings 20 12)
        (syncRead (List.replicate (2 ^ 32) 0) (fun _ => 0) (2 ^ 12 :: doublings 20 12))
        (asyncRead (List.replicate (2 ^ 32) 0) (fun _ => 0) (2 ^ 12 :: doublings 20 12)) := by
  have answers := @answers_full_buffers (List.replicate (2 ^ 32) 0) (fun _ => 0)
    List.length_replicate
  refine ⟨answers, fun agree => ?_⟩
  have small := (ready_newBuffer _ _).small answers agree.same agree.content
  exact absurd (small (2 ^ 31) (by decide)) (lt_irrefl _)

end Aio

end Tpt
