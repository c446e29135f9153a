import Tpt.ConnMgr.Queue
import Tpt.Lib.Trace

/-!
Runs of the queue, and the list they compute.

A run starts with the `conn_mgr_queue_init` that gives the queue its first
contents; its history lists the calls made since then, newest first.
-/

namespace Tpt

namespace ConnMgr

universe u v

variable {α : Type u} {σ : Type v}

inductive QueueCall (α : Type u) where
  | init
  | pushHead (data : Option α) (malloc : Option Nat)
  | pushTail (data : Option α) (malloc : Option Nat)
  | popHead
  deriving DecidableEq

namespace QueueCall

def malloc : QueueCall α → Option Nat
  | init => none
  | pushHead _ malloc => malloc
  | pushTail _ malloc => malloc
  | popHead => none

/-- `malloc` never returns the address of an allocated item. -/
def Legal (call : QueueCall α) (state : QueueState α) : Prop :=
  ∀ address, call.malloc = some address → state.items address = none

def run : QueueCall α → QueueState α → Option (Option α × QueueState α)
  | init, state => some (none, connMgrQueueInit state)
  | pushHead data malloc, state => some (none, connMgrQueuePushHead data malloc state)
  | pushTail data malloc, state => (connMgrQueuePushTail data malloc state).map (Prod.mk none)
  | popHead, state => connMgrQueuePopHead state

def apply : QueueCall α → List α → List α
  | init, _ => []
  | pushHead (some data) (some _), elements => data :: elements
  | pushTail (some data) (some _), elements => elements ++ [data]
  | popHead, elements => elements.tail
  | pushHead _ _, elements => elements
  | pushTail _ _, elements => elements

def result : QueueCall α → List α → Option α
  | popHead, elements => elements.head?
  | _, _ => none

theorem simulates
    {state : QueueState α} {elements : List α}
    (represents : Represents state elements) (call : QueueCall α) (legal : call.Legal state) :
    ∃ after, call.run state = some (call.result elements, after) ∧
      Represents after (call.apply elements) := by
  cases call with
  | init => exact ⟨_, rfl, represents_init state⟩
  | pushHead data malloc =>
      refine ⟨_, rfl, ?_⟩
      cases data with
      | none => exact represents
      | some data =>
          cases malloc with
          | none => exact represents
          | some item => exact represents_pushHead represents data (legal item rfl)
  | pushTail data malloc =>
      cases data with
      | none => exact ⟨state, rfl, represents⟩
      | some data =>
          cases malloc with
          | none => exact ⟨state, rfl, represents⟩
          | some item =>
              obtain ⟨after, pushed, extended⟩ :=
                represents_pushTail represents data (legal item rfl)
              refine ⟨after, ?_, extended⟩
              rw [run, pushed]
              rfl
  | popHead => exact represents_popHead represents

end QueueCall

def QueueStep (state : QueueState α) (call : QueueCall α) (after : QueueState α) : Prop :=
  call.Legal state ∧ ∃ result, call.run state = some (result, after)

/-- The runs of one queue, whatever its memory held before. -/
def QueueRun : List (QueueCall α) → QueueState α → Prop :=
  Trace (fun state => ∃ memory, state = connMgrQueueInit memory) QueueStep

def contents : List (QueueCall α) → List α
  | [] => []
  | call :: history => call.apply (contents history)

theorem QueueRun.represents
    {history : List (QueueCall α)} {state : QueueState α} (run : QueueRun history state) :
    Represents state (contents history) := by
  apply run.invariant fun history state => Represents state (contents history)
  · rintro state ⟨memory, rfl⟩
    exact represents_init memory
  · rintro history state call after before ⟨legal, result, ran⟩
    obtain ⟨reached, runs, represents⟩ := call.simulates before legal
    have same : reached = after := by
      rw [runs] at ran
      exact (Prod.mk.inj (Option.some.inj ran)).2
    exact same ▸ represents

theorem represents_nil
    {state : QueueState α} (represents : Represents state []) :
    state.queue = { head := none, tail := none } := by
  obtain ⟨addresses, spine⟩ := represents
  have empty : addresses = [] := List.length_eq_zero_iff.mp spine.length_eq
  subst empty
  exact ConnMgrQueue.ext (Items.chain_head spine.chain) spine.tail

/-- Walking a chain folds the loop body over its data, once there is fuel for
every item. -/
theorem forEachItem_eq_foldl
    {items : Items α} (body : Option α → σ → σ) {link : Option Nat} {addresses : List Nat}
    {elements : List α} (chain : Chain id items.next link addresses)
    (stored : addresses.map items.data = elements.map (some ∘ some))
    {fuel : Nat} (enough : elements.length ≤ fuel) (world : σ) :
    forEachItem items body fuel link world =
      some (elements.foldl (fun world data => body (some data) world) world) := by
  induction chain generalizing elements fuel world with
  | @nil link ends =>
      have empty : elements = [] := by simpa using stored.symm
      have noLink : link = none := ends
      subst empty noLink
      cases fuel <;> rfl
  | @cons link node after nodes enters follows rest inductionHypothesis =>
      cases elements with
      | nil => simp at stored
      | cons data elements =>
          cases fuel with
          | zero => simp at enough
          | succ fuel =>
              obtain ⟨item, live, rfl⟩ := Option.map_eq_some_iff.mp follows
              obtain ⟨itemData, restStored⟩ := List.cons.inj stored
              have dataIs : item.data = some data := by
                simpa [Items.data, live] using itemData
              have linkIs : link = some node := enters
              subst linkIs
              simp only [forEachItem, live, dataIs, List.foldl_cons]
              exact inductionHypothesis restStored (by simpa using enough) _

theorem connMgrQueuePrint_eq
    {state : QueueState α} {elements : List α} (represents : Represents state elements)
    {fuel : Nat} (enough : elements.length ≤ fuel)
    (printCallback : Option α → σ → σ) (world : σ) :
    connMgrQueuePrint fuel (some printCallback) state world =
      some (elements.foldl (fun world data => printCallback (some data) world) world) := by
  obtain ⟨addresses, spine⟩ := represents
  exact forEachItem_eq_foldl printCallback spine.chain spine.contents enough world

theorem foldl_count_eq
    (elements : List α) (count : UInt32) :
    elements.foldl (fun count _ => count + 1) count =
      count + UInt32.ofNat elements.length := by
  induction elements generalizing count with
  | nil => simp
  | cons first rest inductionHypothesis =>
      rw [List.foldl_cons, inductionHypothesis, List.length_cons, Nat.add_comm, UInt32.ofNat_add,
        ← UInt32.add_assoc]
      rfl

theorem connMgrQueueGetLength_eq
    {state : QueueState α} {elements : List α} (represents : Represents state elements)
    {fuel : Nat} (enough : elements.length ≤ fuel) :
    connMgrQueueGetLength fuel state = some (UInt32.ofNat elements.length) := by
  obtain ⟨addresses, spine⟩ := represents
  have walked := forEachItem_eq_foldl (fun _ count => count + 1) spine.chain spine.contents
    enough (0 : UInt32)
  rw [foldl_count_eq, UInt32.zero_add] at walked
  exact walked

/-- The queue refines a list: after any run the heap holds an acyclic chain
with the list's data, every call acts on it as on the list, and the two
traversals see the list. -/
theorem queue_refines_list
    {history : List (QueueCall α)} {state : QueueState α} (run : QueueRun history state)
    (printCallback : Option α → σ → σ) (world : σ) :
    Represents state (contents history) ∧
      (contents history = [] → state.queue = { head := none, tail := none }) ∧
      (∀ data address, state.items address = none →
        Represents (connMgrQueuePushHead (some data) (some address) state)
          (data :: contents history)) ∧
      (∀ data address, state.items address = none →
        ∃ after, connMgrQueuePushTail (some data) (some address) state = some after ∧
          Represents after (contents history ++ [data])) ∧
      (∀ data malloc, data = none ∨ malloc = none →
        connMgrQueuePushHead data malloc state = state ∧
          connMgrQueuePushTail data malloc state = some state) ∧
      (∃ popped after, connMgrQueuePopHead state = some (popped, after) ∧
        popped = (contents history).head? ∧ (popped = none ↔ contents history = []) ∧
        Represents after (contents history).tail) ∧
      (∀ fuel, (contents history).length ≤ fuel →
        connMgrQueuePrint fuel (some printCallback) state world =
          some ((contents history).foldl
            (fun world data => printCallback (some data) world) world)) ∧
      (∀ fuel, (contents history).length ≤ fuel → (contents history).length < 2 ^ 32 →
        ∃ count, connMgrQueueGetLength fuel state = some count ∧
          count.toNat = (contents history).length) := by
  have represents := run.represents
  refine ⟨represents, ?_, ?_, ?_, ?_, ?_, ?_, ?_⟩
  · intro empty
    exact represents_nil (empty ▸ represents)
  · intro data address unallocated
    exact represents_pushHead represents data unallocated
  · intro data address unallocated
    exact represents_pushTail represents data unallocated
  · rintro data malloc (rfl | rfl)
    · exact ⟨connMgrQueuePushHead_null malloc state, connMgrQueuePushTail_null malloc state⟩
    · exact ⟨connMgrQueuePushHead_failed data state, connMgrQueuePushTail_failed data state⟩
  · obtain ⟨after, popped, rest⟩ := represents_popHead represents
    exact ⟨_, after, popped, rfl, List.head?_eq_none_iff, rest⟩
  · intro fuel enough
    exact connMgrQueuePrint_eq represents enough printCallback world
  · intro fuel enough small
    exact ⟨_, connMgrQueueGetLength_eq represents enough, UInt32.toNat_ofNat_of_lt small⟩

theorem queue_refines_list_two_pushes :
    ∃ state : QueueState Nat,
      QueueRun [.pushHead (some 5) (some 1), .pushTail (some 7) (some 0)] state ∧
        Represents state [5, 7] ∧
        connMgrQueuePrint 2 (some fun data visited => visited ++ [data]) state [] =
          some [some 5, some 7] := by
  let memory : QueueState Nat :=
    { items := fun _ => none, queue := { head := some 3, tail := none } }
  have pushedTail : QueueRun [.pushTail (some 7) (some 0)] _ :=
    .next (.start ⟨memory, rfl⟩) ⟨fun _ _ => rfl, _, rfl⟩
  have pushedHead : QueueRun [.pushHead (some 5) (some 1), .pushTail (some 7) (some 0)] _ :=
    .next pushedTail ⟨fun address malloc => by cases malloc; rfl, _, rfl⟩
  have refines := queue_refines_list pushedHead (fun data visited => visited ++ [data]) []
  exact ⟨_, pushedHead, refines.1, refines.2.2.2.2.2.2.1 2 (by decide)⟩

end ConnMgr

end Tpt
