import Tpt.Lib.Chain

/-!
The connection manager queue, `conn_mgr_queue.c`.

Items live in a heap and are named by their addresses; `void *` data is an
optional value, with `none` for `NULL`.  An operation returns `none` when it
would follow a pointer to an item that is not allocated.
-/

namespace Tpt

namespace ConnMgr

universe u v

structure Item (α : Type u) where
  data : Option α
  next : Option Nat

abbrev Items (α : Type u) := Nat → Option (Item α)

@[ext]
structure ConnMgrQueue where
  head : Option Nat
  tail : Option Nat
  deriving DecidableEq

structure QueueState (α : Type u) where
  items : Items α
  queue : ConnMgrQueue

variable {α : Type u} {σ : Type v}

def connMgrQueueInit (state : QueueState α) : QueueState α :=
  { state with queue := { head := none, tail := none } }

/-- `conn_mgr_queue_push_head`; `malloc` is the address `malloc` returns. -/
def connMgrQueuePushHead (data : Option α) (malloc : Option Nat)
    (state : QueueState α) : QueueState α :=
  match data, malloc with
  | none, _ => state
  | some _, none => state
  | some data, some item =>
      { items := Function.update state.items item
          (some { data := some data, next := state.queue.head })
        queue := {
          head := some item
          tail := if state.queue.tail = none then some item else state.queue.tail } }

def connMgrQueuePushTail (data : Option α) (malloc : Option Nat)
    (state : QueueState α) : Option (QueueState α) :=
  match data, malloc with
  | none, _ => some state
  | some _, none => some state
  | some data, some item =>
      let items := Function.update state.items item (some { data := some data, next := none })
      match state.queue.tail with
      | none => some { items, queue := { head := some item, tail := some item } }
      | some tail =>
          match items tail with
          | none => none
          | some last =>
              some {
                items := Function.update items tail (some { last with next := some item })
                queue := { state.queue with tail := some item } }

def connMgrQueuePopHead (state : QueueState α) : Option (Option α × QueueState α) :=
  match state.queue.head with
  | none => some (none, state)
  | some address =>
      match state.items address with
      | none => none
      | some item =>
          let tail := if item.next = none then none else state.queue.tail
          some (item.data,
            { items := Function.update state.items address none
              queue := { head := item.next, tail } })

/-- The loop `for (item = queue->head; item != NULL; item = item->next)`, run
for at most `fuel` items. -/
def forEachItem (items : Items α) (body : Option α → σ → σ) :
    Nat → Option Nat → σ → Option σ
  | _, none, world => some world
  | 0, some _, _ => none
  | fuel + 1, some address, world =>
      match items address with
      | none => none
      | some item => forEachItem items body fuel item.next (body item.data world)

def connMgrQueueGetLength (fuel : Nat) (state : QueueState α) : Option UInt32 :=
  forEachItem state.items (fun _ count => count + 1) fuel state.queue.head 0

/-- `conn_mgr_queue_print`; the callback acts on a caller's state. -/
def connMgrQueuePrint (fuel : Nat) (printCallback : Option (Option α → σ → σ))
    (state : QueueState α) (world : σ) : Option σ :=
  match printCallback with
  | none => some world
  | some printCallback => forEachItem state.items printCallback fuel state.queue.head world

def Items.next (items : Items α) (address : Nat) : Option (Option Nat) :=
  (items address).map Item.next

def Items.data (items : Items α) (address : Nat) : Option (Option α) :=
  (items address).map Item.data

namespace Items

variable {items : Items α} {addresses : List Nat} {address : Nat}

theorem map_data_update
    (outside : address ∉ addresses) (item : Option (Item α)) :
    addresses.map (Items.data (Function.update items address item)) =
      addresses.map items.data := by
  apply List.map_congr_left
  intro other membership
  have distinct : other ≠ address := fun same => outside (same ▸ membership)
  simp [Items.data, distinct]

theorem chain_head
    {link : Option Nat} (chain : Chain id items.next link addresses) :
    link = addresses.head? := by
  cases chain with
  | nil ends => exact ends
  | cons enters => exact enters

theorem chain_update
    {link : Option Nat} (chain : Chain id items.next link addresses)
    (outside : address ∉ addresses) (item : Option (Item α)) :
    Chain id (Items.next (Function.update items address item)) link addresses := by
  apply chain.congr
  intro other membership
  have distinct : other ≠ address := fun same => outside (same ▸ membership)
  simp [Items.next, distinct]

end Items

/-- The items of a queue, from its head, hold `elements`: they form an acyclic
chain, and the tail pointer names the last of them. -/
structure Spine (state : QueueState α) (addresses : List Nat) (elements : List α) : Prop where
  chain : Chain id state.items.next state.queue.head addresses
  acyclic : addresses.Nodup
  contents : addresses.map state.items.data = elements.map (some ∘ some)
  tail : state.queue.tail = addresses.getLast?

def Represents (state : QueueState α) (elements : List α) : Prop :=
  ∃ addresses, Spine state addresses elements

theorem spine_iff_linked
    {state : QueueState α} {addresses : List Nat} {elements : List α} :
    Spine state addresses elements ↔
      Linked state.items.next state.items.data state.queue.head state.queue.tail addresses
        (elements.map some) := by
  constructor
  · intro spine
    exact ⟨spine.chain, spine.acyclic, by rw [spine.contents, List.map_map], spine.tail⟩
  · intro linked
    exact ⟨linked.chain, linked.acyclic, by rw [linked.contents, List.map_map], linked.last⟩

namespace Spine

variable {state : QueueState α} {addresses : List Nat} {elements : List α}

theorem live
    (spine : Spine state addresses elements) {address : Nat}
    (membership : address ∈ addresses) :
    state.items address ≠ none := by
  intro dangling
  obtain ⟨_, _, stored⟩ := (spine_iff_linked.mp spine).live membership
  simp [Items.data, dangling] at stored

theorem fresh
    (spine : Spine state addresses elements) {address : Nat}
    (unallocated : state.items address = none) :
    address ∉ addresses :=
  fun membership => spine.live membership unallocated

theorem length_eq
    (spine : Spine state addresses elements) :
    addresses.length = elements.length := by
  rw [(spine_iff_linked.mp spine).length_eq, List.length_map]

end Spine

theorem Represents.unique
    {state : QueueState α} {elements others : List α}
    (represents : Represents state elements) (other : Represents state others) :
    elements = others := by
  obtain ⟨addresses, spine⟩ := represents
  obtain ⟨addresses', spine'⟩ := other
  have same : elements.map some = others.map some :=
    (spine_iff_linked.mp spine).unique (spine_iff_linked.mp spine')
  exact (Option.some_injective α).list_map same

theorem represents_init
    (state : QueueState α) : Represents (connMgrQueueInit state) [] :=
  ⟨[], .nil rfl, List.nodup_nil, rfl, rfl⟩

theorem connMgrQueuePushHead_null
    (malloc : Option Nat) (state : QueueState α) :
    connMgrQueuePushHead none malloc state = state := rfl

theorem connMgrQueuePushHead_failed
    (data : Option α) (state : QueueState α) :
    connMgrQueuePushHead data none state = state := by
  cases data <;> rfl

theorem connMgrQueuePushTail_null
    (malloc : Option Nat) (state : QueueState α) :
    connMgrQueuePushTail none malloc state = some state := rfl

theorem connMgrQueuePushTail_failed
    (data : Option α) (state : QueueState α) :
    connMgrQueuePushTail data none state = some state := by
  cases data <;> rfl

theorem represents_pushHead
    {state : QueueState α} {elements : List α}
    (represents : Represents state elements) (data : α) {item : Nat}
    (unallocated : state.items item = none) :
    Represents (connMgrQueuePushHead (some data) (some item) state) (data :: elements) := by
  obtain ⟨addresses, spine⟩ := represents
  have outside := spine.fresh unallocated
  refine ⟨item :: addresses, ?_, ?_, ?_, ?_⟩
  · refine .cons rfl ?_ (Items.chain_update spine.chain outside _)
    simp [connMgrQueuePushHead, Items.next]
  · exact List.nodup_cons.mpr ⟨outside, spine.acyclic⟩
  · rw [List.map_cons, List.map_cons]
    congr 1
    · simp [connMgrQueuePushHead, Items.data]
    · exact (Items.map_data_update outside _).trans spine.contents
  · cases addresses with
    | nil => simp [connMgrQueuePushHead, spine.tail]
    | cons first rest => simp [connMgrQueuePushHead, spine.tail, List.getLast?_cons]

theorem connMgrQueuePushTail_empty
    {state : QueueState α} (data : α) (item : Nat) (noTail : state.queue.tail = none) :
    connMgrQueuePushTail (some data) (some item) state =
      some {
        items := Function.update state.items item (some { data := some data, next := none })
        queue := { head := some item, tail := some item } } := by
  simp only [connMgrQueuePushTail, noTail]

theorem connMgrQueuePushTail_nonempty
    {state : QueueState α} (data : α) {item tail : Nat} {last : Item α}
    (tailIs : state.queue.tail = some tail) (stored : state.items tail = some last)
    (distinct : tail ≠ item) :
    connMgrQueuePushTail (some data) (some item) state =
      some {
        items := Function.update
          (Function.update state.items item (some { data := some data, next := none }))
          tail (some { last with next := some item })
        queue := { state.queue with tail := some item } } := by
  simp [connMgrQueuePushTail, tailIs, stored, distinct]

/-- Appending to a non-empty chain: the old last item is relinked to the new
one and every other item is unchanged. -/
theorem spine_relink
    {state : QueueState α} {front : List Nat} {last item : Nat} {elements : List α}
    {lastItem : Item α} (spine : Spine state (front ++ [last]) elements) (data : α)
    (stored : state.items last = some lastItem) (outside : item ∉ front ++ [last]) :
    Spine
      { items := Function.update
          (Function.update state.items item (some { data := some data, next := none }))
          last (some { lastItem with next := some item })
        queue := { state.queue with tail := some item } }
      (front ++ [last, item]) (elements ++ [data]) := by
  have distinct : item ≠ last := by
    intro same
    exact outside (by simp [same])
  apply spine_iff_linked.mpr
  rw [List.map_append, List.map_singleton]
  refine (spine_iff_linked.mp spine).snoc outside ?_ ?_ ?_ ?_ ?_
  · intro other notLast notItem
    simp [Items.next, notLast, notItem]
  · simp [Items.next]
  · simp [Items.next, distinct]
  · intro other notItem
    by_cases isLast : other = last
    · subst isLast
      simp [Items.data, stored]
    · simp [Items.data, isLast, notItem]
  · simp [Items.data, distinct]

theorem represents_pushTail
    {state : QueueState α} {elements : List α}
    (represents : Represents state elements) (data : α) {item : Nat}
    (unallocated : state.items item = none) :
    ∃ after, connMgrQueuePushTail (some data) (some item) state = some after ∧
      Represents after (elements ++ [data]) := by
  obtain ⟨addresses, spine⟩ := represents
  have outside := spine.fresh unallocated
  rcases List.eq_nil_or_concat addresses with rfl | ⟨front, last, rfl⟩
  · have empty : elements = [] := List.length_eq_zero_iff.mp spine.length_eq.symm
    refine ⟨_, connMgrQueuePushTail_empty data item spine.tail, [item], ?_⟩
    apply spine_iff_linked.mpr
    rw [empty]
    apply Linked.single
    · simp [Items.next]
    · simp [Items.data]
  · rw [List.concat_eq_append] at spine outside
    have lastMembership : last ∈ front ++ [last] := by simp
    obtain ⟨lastItem, stored⟩ :=
      Option.ne_none_iff_exists'.mp (spine.live lastMembership)
    have tailIs : state.queue.tail = some last := by simpa using spine.tail
    have distinct : last ≠ item := fun same => outside (by simp [same])
    exact ⟨_, connMgrQueuePushTail_nonempty data tailIs stored distinct,
      front ++ [last, item], spine_relink spine data stored outside⟩

theorem connMgrQueuePopHead_nonempty
    {state : QueueState α} {address : Nat} {item : Item α} {data : α}
    (headIs : state.queue.head = some address) (stored : state.items address = some item)
    (dataIs : item.data = some data) :
    connMgrQueuePopHead state =
      some (some data, {
        items := Function.update state.items address none
        queue := {
          head := item.next
          tail := if item.next = none then none else state.queue.tail } }) := by
  simp only [connMgrQueuePopHead, headIs, stored, dataIs]

theorem represents_popHead
    {state : QueueState α} {elements : List α}
    (represents : Represents state elements) :
    ∃ after, connMgrQueuePopHead state = some (elements.head?, after) ∧
      Represents after elements.tail := by
  obtain ⟨addresses, spine⟩ := represents
  cases addresses with
  | nil =>
      have empty : elements = [] := List.length_eq_zero_iff.mp spine.length_eq.symm
      have noHead : state.queue.head = none := Items.chain_head spine.chain
      subst empty
      exact ⟨state, by simp [connMgrQueuePopHead, noHead], [], spine⟩
  | cons first rest =>
      cases elements with
      | nil => simpa using spine.length_eq
      | cons data elements =>
          obtain ⟨headIs, link, follows, chain⟩ := Chain.cons_iff.mp spine.chain
          obtain ⟨item, stored, rfl⟩ := Option.map_eq_some_iff.mp follows
          obtain ⟨outside, acyclic⟩ := List.nodup_cons.mp spine.acyclic
          obtain ⟨itemData, contents⟩ := List.cons.inj spine.contents
          have dataIs : item.data = some data := by
            simpa [Items.data, stored] using itemData
          refine ⟨_, connMgrQueuePopHead_nonempty headIs stored dataIs, rest, ?_, acyclic, ?_, ?_⟩
          · exact Items.chain_update chain outside none
          · exact (Items.map_data_update outside none).trans contents
          · rw [Items.chain_head chain, spine.tail]
            cases rest with
            | nil => rfl
            | cons second rest => simp [List.getLast?_cons]

end ConnMgr

end Tpt
