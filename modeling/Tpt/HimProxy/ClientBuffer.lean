import Tpt.HimProxy.Receiving

/-!
The receive buffer of the new proxy, `recv_client_data` of `core.c`.

A connection goes through calls of `recv_client_data`.  A call is made of steps
that end where the allocator or the kernel answers; the answers are the events.
A step that would write outside a live block has no result.
-/

namespace Tpt

namespace HimProxy.Core

open Memory

def allocSize : Int := 8192

def reallocThreshold : Int := 128

structure ClientInfo where
  cbuf : Option Nat
  cbufSize : Int
  cbufLen : Int
  deriving DecidableEq

/-- Where a connection stands: between calls, with the value that the last one
returned, in `malloc`, in `recv`, or in `realloc`. -/
inductive Control where
  | returned (ret : Int)
  | malloc
  | recv
  | realloc
  deriving DecidableEq

/-- A connection; `received` are the bytes that its `recv` calls returned. -/
structure Client where
  control : Control
  cinfo : ClientInfo
  heap : Heap
  received : List UInt8

/-- A call begins, or one that it makes is answered: an allocation with a block
and what the block holds beyond the old bytes. -/
inductive Event where
  | call
  | malloc (result : Option (Nat × Bytes))
  | recv (result : RecvResult)
  | realloc (result : Option (Nat × Bytes))

def ClientInfo.rest (cinfo : ClientInfo) : Int := int32 (cinfo.cbufSize - cinfo.cbufLen)

/-- The entry of `recv_client_data`, up to its first call. -/
def recvClientData (client : Client) : Client :=
  if client.cinfo.cbufSize = 0 then
    { client with control := .malloc, cinfo := { client.cinfo with cbufSize := allocSize } }
  else { client with control := .recv }

def afterRecv (result : RecvResult) (client : Client) : Option Client :=
  match result with
  | .interrupted => some client
  | .again => some { client with control := .returned 0 }
  | .failed => some { client with control := .returned (-3) }
  | .data [] => some { client with control := .returned 0 }
  | .data bytes =>
      if bytes.length ≤ client.cinfo.rest then
        client.cinfo.cbuf.bind fun block =>
          (client.heap.write? ⟨block, client.cinfo.cbufLen.toNat⟩ bytes).map fun heap =>
            let cinfo := { client.cinfo with
              cbufLen := int32 (client.cinfo.cbufLen + bytes.length) }
            let client := { client with cinfo, heap, received := client.received ++ bytes }
            if cinfo.rest ≤ reallocThreshold then
              { client with
                control := .realloc
                cinfo := { cinfo with cbufSize := int32 (cinfo.cbufSize * 2) } }
            else client
      else none

/-- `cbuf` after an allocation of `cbuf_size` bytes; a negative size is more
than an allocator can give. -/
def allocated (old : Option Nat) (result : Option (Nat × Bytes)) (control failed : Control)
    (client : Client) : Option Client :=
  match result with
  | none =>
      some { client with control := failed, cinfo := { client.cinfo with cbuf := none } }
  | some (block, fill) =>
      if 0 ≤ client.cinfo.cbufSize ∧ (old = some block ∨ client.heap block = none) then
        some { client with
          control
          cinfo := { client.cinfo with cbuf := some block }
          heap := client.heap.reallocate old block client.cinfo.cbufSize.toNat fill }
      else none

/-- A failed `malloc` returns `-2`; a failed `realloc` goes back to `recv`. -/
def clientStep (client : Client) : Event → Option Client
  | .call =>
      match client.control with
      | .returned _ => some (recvClientData client)
      | _ => none
  | .malloc result =>
      if client.control = .malloc then allocated none result .recv (.returned (-2)) client
      else none
  | .recv result => if client.control = .recv then afterRecv result client else none
  | .realloc result =>
      if client.control = .realloc then
        allocated client.cinfo.cbuf result .recv .recv client
      else none

def Client.start : Client :=
  { control := .returned 0
    cinfo := { cbuf := none, cbufSize := 0, cbufLen := 0 }
    heap := fun _ => none
    received := [] }

def ClientRun : List Event → Client → Prop :=
  Trace (fun client => client = Client.start)
    (fun client event after => clientStep client event = some after)

def Event.FailsAllocation : Event → Prop
  | .malloc result => result = none
  | .realloc result => result = none
  | _ => False

/-- At a `recv` there is room in a buffer; there and between calls the buffer
is a block of `cbuf_size` bytes that begins with all that was received; and the
step of an allocation that fails returns a negative value. -/
structure Safe (history : List Event) (client : Client) : Prop where
  recv : client.control = .recv → client.cinfo.cbuf ≠ none ∧ 0 < client.cinfo.rest
  received : client.cinfo.cbufLen = client.received.length
  held : client.control = .recv ∨ (∃ ret, client.control = .returned ret) →
    Holds client.heap client.received client.cinfo.cbuf client.cinfo.cbufSize
  failure : ∀ event, history.head? = some event → event.FailsAllocation →
    ∃ ret, ret < 0 ∧ client.control = .returned ret

inductive ClientStep (client : Client) : Event → Client → Prop where
  | first {ret} :
      client.control = .returned ret →
      client.cinfo.cbufSize = 0 →
      ClientStep client .call { client with
        control := .malloc
        cinfo := { client.cinfo with cbufSize := allocSize } }
  | again {ret} :
      client.control = .returned ret →
      client.cinfo.cbufSize ≠ 0 →
      ClientStep client .call { client with control := .recv }
  | mallocFailed :
      client.control = .malloc →
      ClientStep client (.malloc none) { client with
        control := .returned (-2)
        cinfo := { client.cinfo with cbuf := none } }
  | malloc {block fill} :
      client.control = .malloc →
      0 ≤ client.cinfo.cbufSize →
      ClientStep client (.malloc (some (block, fill))) { client with
        control := .recv
        cinfo := { client.cinfo with cbuf := some block }
        heap := client.heap.reallocate none block client.cinfo.cbufSize.toNat fill }
  | interrupted :
      client.control = .recv →
      ClientStep client (.recv .interrupted) client
  | left {result ret} :
      client.control = .recv →
      ClientStep client (.recv result) { client with control := .returned ret }
  | received {block heap} {bytes : List UInt8} :
      client.control = .recv →
      bytes.length ≤ client.cinfo.rest →
      client.cinfo.cbuf = some block →
      client.heap.write? ⟨block, client.cinfo.cbufLen.toNat⟩ bytes = some heap →
      reallocThreshold < int32 (client.cinfo.cbufSize -
        int32 (client.cinfo.cbufLen + bytes.length)) →
      ClientStep client (.recv (.data bytes)) { client with
        cinfo := { client.cinfo with cbufLen := int32 (client.cinfo.cbufLen + bytes.length) }
        heap
        received := client.received ++ bytes }
  | filled {block heap} {bytes : List UInt8} :
      client.control = .recv →
      bytes.length ≤ client.cinfo.rest →
      client.cinfo.cbuf = some block →
      client.heap.write? ⟨block, client.cinfo.cbufLen.toNat⟩ bytes = some heap →
      ClientStep client (.recv (.data bytes)) { client with
        control := .realloc
        cinfo := { client.cinfo with
          cbufLen := int32 (client.cinfo.cbufLen + bytes.length)
          cbufSize := int32 (client.cinfo.cbufSize * 2) }
        heap
        received := client.received ++ bytes }
  | reallocFailed :
      client.control = .realloc →
      ClientStep client (.realloc none) { client with
        control := .recv
        cinfo := { client.cinfo with cbuf := none } }
  | realloc {block fill} :
      client.control = .realloc →
      0 ≤ client.cinfo.cbufSize →
      ClientStep client (.realloc (some (block, fill))) { client with
        control := .recv
        cinfo := { client.cinfo with cbuf := some block }
        heap := client.heap.reallocate client.cinfo.cbuf block client.cinfo.cbufSize.toNat fill }

section Runs

variable {client after : Client} {event : Event} {history : List Event}

theorem clientStep_inversion
    (stepped : clientStep client event = some after) : ClientStep client event after := by
  cases event with
  | call =>
      simp only [clientStep] at stepped
      split at stepped
      case h_2 => cases stepped
      case h_1 ret control =>
        obtain rfl := Option.some.inj stepped
        unfold recvClientData
        split
        case isTrue unset => exact .first control unset
        case isFalse set => exact .again control set
  | malloc result =>
      obtain ⟨control, answered⟩ := Option.ite_none_right_eq_some.mp stepped
      cases result with
      | none =>
          obtain rfl := Option.some.inj answered
          exact .mallocFailed control
      | some answer =>
          obtain ⟨⟨nonnegative, _⟩, same⟩ := Option.ite_none_right_eq_some.mp answered
          obtain rfl := Option.some.inj same
          exact .malloc control nonnegative
  | recv result =>
      obtain ⟨control, answered⟩ := Option.ite_none_right_eq_some.mp stepped
      unfold afterRecv at answered
      split at answered
      case h_1 =>
        obtain rfl := Option.some.inj answered
        exact .interrupted control
      case h_5 bytes _ =>
        obtain ⟨fits, stored⟩ := Option.ite_none_right_eq_some.mp answered
        obtain ⟨block, cbuf, written⟩ := Option.bind_eq_some_iff.mp stored
        obtain ⟨heap, write, rfl⟩ := Option.map_eq_some_iff.mp written
        simp only
        split
        case isTrue => exact .filled control fits cbuf write
        case isFalse roomy => exact .received control fits cbuf write (Int.not_le.mp roomy)
      all_goals
        obtain rfl := Option.some.inj answered
        exact .left control
  | realloc result =>
      obtain ⟨control, answered⟩ := Option.ite_none_right_eq_some.mp stepped
      cases result with
      | none =>
          obtain rfl := Option.some.inj answered
          exact .reallocFailed control
      | some answer =>
          obtain ⟨⟨nonnegative, _⟩, same⟩ := Option.ite_none_right_eq_some.mp answered
          obtain rfl := Option.some.inj same
          exact .realloc control nonnegative

def Placed (client : Client) : Prop :=
  match client.control with
  | .returned _ =>
      Holds client.heap client.received client.cinfo.cbuf client.cinfo.cbufSize ∧
        (client.cinfo.cbufSize = 0 ∨ client.received.length < client.cinfo.cbufSize)
  | .malloc =>
      client.cinfo.cbuf = none ∧ client.received = [] ∧ client.cinfo.cbufSize = allocSize
  | .recv =>
      Holds client.heap client.received client.cinfo.cbuf client.cinfo.cbufSize ∧
        client.received.length < client.cinfo.cbufSize
  | .realloc => ∃ size, Holds client.heap client.received client.cinfo.cbuf size ∧ size ≠ 0 ∧
      client.cinfo.cbufSize = int32 (size * 2)

structure Good (client : Client) : Prop where
  received : client.cinfo.cbufLen = client.received.length
  placed : Placed client

/-- An allocation has failed: `cbuf` is gone and `cbuf_size` is set. -/
structure Lost (client : Client) : Prop where
  cbuf : client.cinfo.cbuf = none
  cbufSize : client.cinfo.cbufSize ≠ 0
  control : client.control = .recv ∨ ∃ ret, client.control = .returned ret

theorem Lost.step (lost : Lost client) (stepped : ClientStep client event after) : Lost after := by
  obtain ⟨cbuf, cbufSize, control⟩ := lost
  cases stepped with
  | first _ unset => exact absurd unset cbufSize
  | again _ _ => exact ⟨cbuf, cbufSize, .inl rfl⟩
  | mallocFailed atMalloc => simp [atMalloc] at control
  | malloc atMalloc _ => simp [atMalloc] at control
  | interrupted _ => exact ⟨cbuf, cbufSize, control⟩
  | left _ => exact ⟨cbuf, cbufSize, .inr ⟨_, rfl⟩⟩
  | received _ _ present _ _ => cases cbuf.symm.trans present
  | filled _ _ present _ => cases cbuf.symm.trans present
  | reallocFailed atRealloc => simp [atRealloc] at control
  | realloc atRealloc _ => simp [atRealloc] at control

theorem int32_eq {value : Int} (nonnegative : 0 ≤ value) (bounded : value < 2 ^ 31) :
    int32 value = value := by
  unfold int32
  refine Int.bmod_eq_of_le ?_ ?_
  · omega
  · omega

namespace Good

theorem atReturned
    {ret : Int} (good : Good client) (control : client.control = .returned ret) :
    Holds client.heap client.received client.cinfo.cbuf client.cinfo.cbufSize ∧
      (client.cinfo.cbufSize = 0 ∨ client.received.length < client.cinfo.cbufSize) := by
  have placed := good.placed
  rwa [Placed, control] at placed

theorem atMalloc (good : Good client) (control : client.control = .malloc) :
    client.cinfo.cbuf = none ∧ client.received = [] ∧ client.cinfo.cbufSize = allocSize := by
  have placed := good.placed
  rwa [Placed, control] at placed

theorem atRecv (good : Good client) (control : client.control = .recv) :
    Holds client.heap client.received client.cinfo.cbuf client.cinfo.cbufSize ∧
      client.received.length < client.cinfo.cbufSize := by
  have placed := good.placed
  rwa [Placed, control] at placed

theorem atRealloc (good : Good client) (control : client.control = .realloc) :
    ∃ size, Holds client.heap client.received client.cinfo.cbuf size ∧ size ≠ 0 ∧
      client.cinfo.cbufSize = int32 (size * 2) := by
  have placed := good.placed
  rwa [Placed, control] at placed

theorem rest_eq (good : Good client) (control : client.control = .recv) :
    client.cinfo.rest = client.cinfo.cbufSize - client.received.length := by
  obtain ⟨holds, room⟩ := good.atRecv control
  obtain ⟨_, _, bounded, _⟩ := holds.bounds (by omega)
  rw [ClientInfo.rest, good.received]
  exact int32_eq (by omega) (by omega)

theorem allocated
    {old : Option Nat} {oldSize : Int} {block : Nat} (good : Good client)
    (holds : Holds client.heap client.received old oldSize)
    (least : allocSize ≤ client.cinfo.cbufSize) (bounded : client.cinfo.cbufSize < 2 ^ 31)
    (grows : oldSize ≤ client.cinfo.cbufSize)
    (room : client.received.length < client.cinfo.cbufSize) (fill : Bytes) :
    Good { client with
      control := .recv
      cinfo := { client.cinfo with cbuf := some block }
      heap := client.heap.reallocate old block client.cinfo.cbufSize.toNat fill } := by
  obtain ⟨size, cbufSize⟩ := Int.eq_ofNat_of_zero_le (Int.le_trans (by decide) least)
  refine ⟨good.received, ?_, room⟩
  simp only [cbufSize] at least bounded grows ⊢
  exact holds.reallocate least bounded grows block fill

theorem malloc
    {block : Nat} (good : Good client) (control : client.control = .malloc) (fill : Bytes) :
    Good { client with
      control := .recv
      cinfo := { client.cinfo with cbuf := some block }
      heap := client.heap.reallocate none block client.cinfo.cbufSize.toNat fill } := by
  obtain ⟨_, nothing, size⟩ := good.atMalloc control
  refine good.allocated (.empty nothing) size.ge ?_ ?_ ?_ fill
  · rw [size]
    decide
  · rw [size]
    decide
  · rw [size, nothing]
    decide

theorem realloc
    {block : Nat} (good : Good client) (control : client.control = .realloc)
    (nonnegative : 0 ≤ client.cinfo.cbufSize) (fill : Bytes) :
    Good { client with
      control := .recv
      cinfo := { client.cinfo with cbuf := some block }
      heap := client.heap.reallocate client.cinfo.cbuf block client.cinfo.cbufSize.toNat
        fill } := by
  obtain ⟨size, holds, set, doubled⟩ := good.atRealloc control
  obtain ⟨_, least, bounded, fits⟩ := holds.bounds set
  have positive : 0 < size := Int.lt_of_lt_of_le (by decide) least
  rcases int32_double positive.le bounded with ⟨small, exactly⟩ | ⟨_, negative⟩
  · have grown : client.cinfo.cbufSize = size * 2 := doubled.trans exactly
    refine good.allocated holds ?_ ?_ ?_ ?_ fill
    · exact Int.le_trans least (by omega)
    · omega
    · omega
    · omega
  · omega

theorem write
    {block : Nat} {heap : Heap} {bytes : List UInt8} (good : Good client)
    (control : client.control = .recv) (fits : bytes.length ≤ client.cinfo.rest)
    (cbuf : client.cinfo.cbuf = some block)
    (write : client.heap.write? ⟨block, client.cinfo.cbufLen.toNat⟩ bytes = some heap) :
    Holds heap (client.received ++ bytes) client.cinfo.cbuf client.cinfo.cbufSize ∧
      int32 (client.cinfo.cbufLen + bytes.length) =
        ((client.received ++ bytes).length : Int) := by
  obtain ⟨holds, room⟩ := good.atRecv control
  have rest := good.rest_eq control
  obtain ⟨_, _, bounded, _⟩ := holds.bounds (by omega)
  rw [cbuf] at holds ⊢
  have fits' : client.received.length + bytes.length ≤ client.cinfo.cbufSize := by omega
  obtain ⟨heap', write', holds'⟩ := holds.write fits'
  rw [good.received, Int.toNat_natCast] at write
  obtain rfl := Option.some.inj (write.symm.trans write')
  refine ⟨holds', ?_⟩
  rw [good.received, List.length_append, Nat.cast_add]
  exact int32_eq (by omega) (by omega)

/-- Every step keeps a connection good until an allocation fails, and then the
buffer is lost. -/
theorem step (good : Good client) (stepped : ClientStep client event after) :
    (¬ event.FailsAllocation ∧ Good after) ∨ (event.FailsAllocation ∧ Lost after) := by
  cases stepped with
  | first control unset =>
      obtain ⟨holds, _⟩ := good.atReturned control
      obtain ⟨cbuf, nothing⟩ := holds.unset unset
      exact .inl ⟨id, good.received, cbuf, nothing, rfl⟩
  | again control set =>
      obtain ⟨holds, unset | room⟩ := good.atReturned control
      · exact absurd unset set
      · exact .inl ⟨id, good.received, holds, room⟩
  | mallocFailed control =>
      obtain ⟨_, _, size⟩ := good.atMalloc control
      refine .inr ⟨rfl, rfl, ?_, .inr ⟨_, rfl⟩⟩
      rw [size]
      decide
  | malloc control _ => exact .inl ⟨Option.some_ne_none _, good.malloc control _⟩
  | interrupted control => exact .inl ⟨id, good⟩
  | left control =>
      obtain ⟨holds, room⟩ := good.atRecv control
      exact .inl ⟨id, good.received, holds, .inr room⟩
  | @received block heap bytes control fits cbuf write roomy =>
      obtain ⟨holds, length⟩ := good.write control fits cbuf write
      have positive := (good.atRecv control).2
      obtain ⟨_, _, bounded, fits⟩ := holds.bounds (by omega)
      rw [length, int32_eq (by omega) (by omega), reallocThreshold] at roomy
      have room : ((client.received ++ bytes).length : Int) < client.cinfo.cbufSize := by omega
      refine .inl ⟨id, length, ?_⟩
      rw [Placed, control]
      exact ⟨holds, room⟩
  | filled control fits cbuf write =>
      obtain ⟨holds, length⟩ := good.write control fits cbuf write
      have positive := (good.atRecv control).2
      exact .inl ⟨id, length, client.cinfo.cbufSize, holds, by omega, rfl⟩
  | reallocFailed control =>
      obtain ⟨size, holds, set, doubled⟩ := good.atRealloc control
      obtain ⟨_, least, bounded, _⟩ := holds.bounds set
      have positive : 0 < size := Int.lt_of_lt_of_le (by decide) least
      have nonzero : int32 (size * 2) ≠ 0 := by
        rcases int32_double positive.le bounded with ⟨_, exactly⟩ | ⟨_, negative⟩
        · omega
        · exact negative.ne
      exact .inr ⟨rfl, rfl, doubled ▸ nonzero, .inl rfl⟩
  | realloc control nonnegative =>
      exact .inl ⟨Option.some_ne_none _, good.realloc control nonnegative _⟩

theorem safe (good : Good client) (succeeded : ∀ event ∈ history, ¬ event.FailsAllocation) :
    Safe history client where
  recv control := by
    obtain ⟨holds, room⟩ := good.atRecv control
    rw [good.rest_eq control]
    exact ⟨(holds.bounds (by omega)).1, by omega⟩
  received := good.received
  held := by
    rintro (control | ⟨ret, control⟩)
    · exact (good.atRecv control).1
    · exact (good.atReturned control).1
  failure event last fails := absurd fails (succeeded event (List.mem_of_mem_head? last))

end Good

theorem Lost.not_safe (lost : Lost client) : ¬ Safe history client := by
  intro safe
  have holds := safe.held lost.control
  exact (holds.bounds lost.cbufSize).1 lost.cbuf

theorem ClientRun.good_or_lost
    (run : ClientRun history client) :
    ((∀ event ∈ history, ¬ event.FailsAllocation) ∧ Good client) ∨
      ((∃ event ∈ history, event.FailsAllocation) ∧ Lost client) := by
  refine Trace.invariant (fun history client =>
    ((∀ event ∈ history, ¬ event.FailsAllocation) ∧ Good client) ∨
      ((∃ event ∈ history, event.FailsAllocation) ∧ Lost client)) ?_ ?_ run
  · rintro _ rfl
    exact .inl ⟨nofun, rfl, .empty rfl, .inl rfl⟩
  · rintro history before event after (⟨succeeded, good⟩ | ⟨⟨failed, member, fails⟩, lost⟩) stepped
    · rcases good.step (clientStep_inversion stepped) with ⟨succeeds, good⟩ | ⟨fails, lost⟩
      · exact .inl ⟨List.forall_mem_cons.mpr ⟨succeeds, succeeded⟩, good⟩
      · exact .inr ⟨⟨event, List.mem_cons_self, fails⟩, lost⟩
    · refine .inr ⟨⟨failed, List.mem_cons_of_mem event member, fails⟩, ?_⟩
      exact lost.step (clientStep_inversion stepped)

/-- A connection stays safe as long as no allocation fails, and never is again
after one has. -/
theorem client_buffer_safe_iff
    (run : ClientRun history client) :
    Safe history client ↔ ∀ event ∈ history, ¬ event.FailsAllocation := by
  rcases run.good_or_lost with ⟨succeeded, good⟩ | ⟨⟨event, member, fails⟩, lost⟩
  · exact ⟨fun _ => succeeded, fun _ => good.safe succeeded⟩
  · exact ⟨fun safe => absurd safe lost.not_safe,
      fun succeeded => absurd fails (succeeded event member)⟩

end Runs

def fourBytes : List Event :=
  [.recv .again, .recv (.data [71, 69, 84, 32]), .malloc (some (0, fun _ => 0)), .call]

theorem client_buffer_safe_iff_four_bytes :
    ∃ client, ClientRun fourBytes client ∧ Safe fourBytes client := by
  obtain ⟨client, replayed, _⟩ := Option.map_eq_some_iff.mp
    (by decide : (replay clientStep fourBytes Client.start).map (fun client => client.control) =
      some (.returned 0))
  have run : ClientRun fourBytes client := Trace.of_replay rfl replayed
  refine ⟨client, run, (client_buffer_safe_iff run).mpr ?_⟩
  simp [fourBytes, Event.FailsAllocation]

/-- `malloc` fails, and the next call of `recv_client_data` asks `recv` to write
to `NULL`. -/
theorem recv_into_null :
    ∃ client, ClientRun [.call, .malloc none, .call] client ∧ client.control = .recv ∧
      client.cinfo.cbuf = none ∧ ¬ Safe [.call, .malloc none, .call] client := by
  refine ⟨_, Trace.of_replay rfl rfl, rfl, rfl, ?_⟩
  intro safe
  exact (safe.recv rfl).1 rfl

end HimProxy.Core

end Tpt
