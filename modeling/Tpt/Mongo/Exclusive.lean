import Tpt.Mongo.Model

/-!
Exclusive use of the pooled clients.

`Settles` is a judgement on what is left of an operation, like a linear type:
it says which client, collection and cursor the operation holds, that it gives
each of them back once, and that it destroys only after the push.
-/

namespace Tpt

namespace Mongo

universe u

/-- A popped client that was not pushed, and a collection and a cursor that
were not destroyed. -/
structure Held where
  client : Option Nat
  coll : Option Nat
  cursor : Option Nat

namespace Held

def nothing : Held := { client := none, coll := none, cursor := none }

def setClient (held : Held) (client : Option Nat) : Held := { held with client }

def setColl (held : Held) (coll : Option Nat) : Held := { held with coll }

def setCursor (held : Held) (cursor : Option Nat) : Held := { held with cursor }

end Held

inductive Settles : Code → Held → Prop where
  | done {ret found} : Settles (.done ret found) .nothing
  | clientPoolPop {next} :
      Settles (next none) .nothing →
      (∀ client, Settles (next (some client)) ⟨some client, none, none⟩) →
      Settles (.clientPoolPop next) .nothing
  | clientGetCollection {client next} :
      Settles (next none) ⟨some client, none, none⟩ →
      (∀ coll, Settles (next (some coll)) ⟨some client, some coll, none⟩) →
      Settles (.clientGetCollection client next) ⟨some client, none, none⟩
  | collection {op client coll next} :
      (∀ succeeds, Settles (next succeeds) ⟨some client, some coll, none⟩) →
      Settles (.collection op coll next) ⟨some client, some coll, none⟩
  | collectionFind {client coll next} :
      Settles (next none) ⟨some client, some coll, none⟩ →
      (∀ cursor, Settles (next (some cursor)) ⟨some client, some coll, some cursor⟩) →
      Settles (.collectionFind coll next) ⟨some client, some coll, none⟩
  | cursorNext {client coll cursor next} :
      (∀ found, Settles (next found) ⟨some client, coll, some cursor⟩) →
      Settles (.cursorNext cursor next) ⟨some client, coll, some cursor⟩
  | clientPoolPush {client coll cursor next} :
      Settles next ⟨none, coll, cursor⟩ →
      Settles (.clientPoolPush client next) ⟨some client, coll, cursor⟩
  | collectionDestroy {coll cursor next} :
      Settles next ⟨none, none, cursor⟩ →
      Settles (.collectionDestroy coll next) ⟨none, some coll, cursor⟩
  | cursorDestroy {coll cursor next} :
      Settles next ⟨none, coll, none⟩ →
      Settles (.cursorDestroy cursor next) ⟨none, coll, some cursor⟩

theorem settles_onCollection (op : CollectionOp) (failed : MongoErr) :
    Settles (onCollection op failed) .nothing := by
  refine .clientPoolPop .done fun client => ?_
  refine .clientGetCollection (.clientPoolPush .done) fun coll => ?_
  refine .collection fun succeeds => ?_
  cases succeeds with
  | false => exact .clientPoolPush (.collectionDestroy .done)
  | true => exact .clientPoolPush (.collectionDestroy .done)

theorem Settles.checked
    {check : Prop} [Decidable check] {ret : MongoErr} {found : Option Bool} {code : Code}
    (settles : Settles code .nothing) :
    Settles (if check then .done ret found else code) .nothing := by
  split
  · exact .done
  · exact settles

theorem settles_mongoDocExists (nullParams : Bool) :
    Settles (mongoDocExists nullParams) .nothing := by
  refine .checked ?_
  refine .clientPoolPop .done fun client => ?_
  refine .clientGetCollection (.clientPoolPush .done) fun coll => ?_
  refine .collectionFind (.clientPoolPush (.collectionDestroy .done)) fun cursor => ?_
  exact .cursorNext fun found => .clientPoolPush (.collectionDestroy (.cursorDestroy .done))

/-- Every operation starts with nothing and gives everything back. -/
theorem settles_code (operation : Operation) : Settles operation.code .nothing := by
  cases operation with
  | insertDoc nullParams => exact .checked (settles_onCollection _ _)
  | docRemove nullParams => exact .checked (settles_onCollection _ _)
  | collCreateTtlIndex nullParams ttl => exact .checked (.checked (settles_onCollection _ _))
  | docUpdate nullParams => exact .checked (settles_onCollection _ _)
  | docExists nullParams => exact settles_mongoDocExists nullParams

section Systems

variable {Thread : Type u}

/-- A handle is held by one thread inside a call, or was destroyed once. -/
def DestroyedOnce (system : System Thread) (handles : Handles) : Prop :=
  ∃ holds : Thread → Option Nat, handles.Kept holds ∧
    ∀ thread, system.code thread = none → holds thread = none

/-- A client is used only by the thread that has popped it; it is pushed as
often as popped, except by a thread inside a call; and collections and cursors
are destroyed once. -/
structure Meets (system : System Thread) : Prop where
  exclusive : ∀ use ∈ system.uses, use.owner = some use.thread
  pushed : ∀ client, (system.owner client = none ∧ system.pops client = system.pushes client) ∨
    ∃ thread, system.owner client = some thread ∧ system.code thread ≠ none ∧
      system.pops client = system.pushes client + 1
  collections : DestroyedOnce system system.collections
  cursors : DestroyedOnce system system.cursors

/-- What the driver has on its books, when the threads hold what `held` says. -/
structure Books (system : System Thread) (held : Thread → Held) : Prop where
  owner : ∀ client thread, system.owner client = some thread ↔
    (held thread).client = some client
  pushed : ∀ client,
    system.pops client = system.pushes client + if system.owner client = none then 0 else 1
  collections : system.collections.Kept (Held.coll ∘ held)
  cursors : system.cursors.Kept (Held.cursor ∘ held)
  collectionClient : ∀ thread client coll, (held thread).client = some client →
    (held thread).coll = some coll → system.collectionClient coll = client
  cursorClient : ∀ thread client cursor, (held thread).client = some client →
    (held thread).cursor = some cursor → system.cursorClient cursor = client
  uses : ∀ use ∈ system.uses, use.owner = some use.thread ↔ use.destroys = false

/-- Every thread has left to do what gives back all that it holds. -/
def OnCourse (system : System Thread) (held : Thread → Held) : Prop :=
  ∀ thread, match system.code thread with
    | some code => Settles code (held thread)
    | none => held thread = .nothing

variable [DecidableEq Thread]

theorem comp_update_same
    {α : Type} (field : Held → α) (held : Thread → Held) (thread : Thread) (new : Held)
    (same : field new = field (held thread)) :
    field ∘ Function.update held thread new = field ∘ held := by
  rw [Function.comp_update, same]
  exact Function.update_eq_self thread (field ∘ held)

def OfClient (clientOf : Nat → Nat) (field : Held → Option Nat) (held : Thread → Held) : Prop :=
  ∀ thread client handle, (held thread).client = some client →
    field (held thread) = some handle → clientOf handle = client

section OfClient

variable {clientOf : Nat → Nat} {field : Held → Option Nat} {held : Thread → Held}
  {thread : Thread}

theorem OfClient.update
    {new : Held} (ofClient : OfClient clientOf field held)
    (mine : ∀ client handle, new.client = some client → field new = some handle →
      clientOf handle = client) :
    OfClient clientOf field (Function.update held thread new) := by
  intro other client handle holds obtained
  by_cases isThread : other = thread
  · rw [isThread, Function.update_self] at holds obtained
    exact mine client handle holds obtained
  · rw [Function.update_of_ne isThread] at holds obtained
    exact ofClient other client handle holds obtained

theorem OfClient.obtain
    {handles : Handles} {client : Nat} {new : Held} (ofClient : OfClient clientOf field held)
    (kept : handles.Kept (field ∘ held)) (holds : new.client = some client)
    (obtained : field new = some handles.made) :
    OfClient (Function.update clientOf handles.made client) field
      (Function.update held thread new) := by
  intro other client' handle holds' obtained'
  by_cases isThread : other = thread
  · rw [isThread, Function.update_self] at holds' obtained'
    obtain rfl := Option.some.inj (obtained.symm.trans obtained')
    obtain rfl := Option.some.inj (holds.symm.trans holds')
    exact Function.update_self ..
  · rw [Function.update_of_ne isThread] at holds' obtained'
    have older : handle ≠ handles.made := Nat.ne_of_lt (kept.live other handle obtained').1
    rw [Function.update_of_ne older]
    exact ofClient other client' handle holds' obtained'

end OfClient

namespace Books

variable {system : System Thread} {held : Thread → Held} {thread : Thread} {client : Nat}

theorem goto (books : Books system held) (code : Option Code) :
    Books (system.goto thread code) held :=
  ⟨books.owner, books.pushed, books.collections, books.cursors, books.collectionClient,
    books.cursorClient, books.uses⟩

omit [DecidableEq Thread] in
theorem use
    {destroys : Bool} (books : Books system held)
    (owned : system.owner client = some thread ↔ destroys = false) :
    Books (system.use thread client destroys) held where
  owner := books.owner
  pushed := books.pushed
  collections := books.collections
  cursors := books.cursors
  collectionClient := books.collectionClient
  cursorClient := books.cursorClient
  uses := List.forall_mem_cons.mpr ⟨owned, books.uses⟩

omit [DecidableEq Thread] in
theorem owned
    (books : Books system held) (holds : (held thread).client = some client) :
    system.owner client = some thread ↔ false = false :=
  iff_of_true ((books.owner client thread).mpr holds) rfl

omit [DecidableEq Thread] in
theorem unowned
    (books : Books system held) (holds : (held thread).client = none) (client : Nat) :
    system.owner client = some thread ↔ true = false := by
  refine iff_of_false ?_ nofun
  rw [books.owner, holds]
  exact nofun

omit [DecidableEq Thread] in
theorem useCollection
    {coll : Nat} (books : Books system held) (holds : (held thread).client = some client)
    (holdsColl : (held thread).coll = some coll) :
    Books (system.use thread (system.collectionClient coll) false) held := by
  have same := books.collectionClient thread client coll holds holdsColl
  exact books.use (books.owned (holds.trans (congrArg some same.symm)))

theorem owner_same
    {new : Held} (books : Books system held) (same : new.client = (held thread).client)
    (client : Nat) (other : Thread) :
    system.owner client = some other ↔
      (Function.update held thread new other).client = some client := by
  have clients := congrFun (comp_update_same Held.client held thread new same) other
  rw [books.owner client other]
  exact iff_of_eq (congrArg (· = some client) clients.symm)

theorem pop
    (books : Books system held) (nothing : held thread = .nothing)
    (free : system.owner client = none) :
    Books (system.pop thread client)
      (Function.update held thread ⟨some client, none, none⟩) where
  owner client' other := by
    by_cases isThread : other = thread
    · subst isThread
      rw [Function.update_self]
      by_cases isClient : client' = client
      · subst isClient
        exact iff_of_true (Function.update_self ..) rfl
      · have unheld : system.owner client' ≠ some other := by
          rw [Ne, books.owner, nothing]
          exact nofun
        refine iff_of_false ?_ fun same => isClient (Option.some.inj same).symm
        rwa [System.pop_owner, Function.update_of_ne isClient]
    · rw [Function.update_of_ne isThread, ← books.owner]
      by_cases isClient : client' = client
      · subst isClient
        refine iff_of_false ?_ (by rw [free]; exact nofun)
        rw [System.pop_owner, Function.update_self]
        exact fun same => isThread (Option.some.inj same).symm
      · rw [System.pop_owner, Function.update_of_ne isClient]
  pushed client' := by
    by_cases isClient : client' = client
    · subst isClient
      have before := books.pushed client'
      rw [free] at before
      simp only [System.pop, Function.update_self, before]
      rfl
    · simp only [System.pop, Function.update_of_ne isClient]
      exact books.pushed client'
  collections := by
    rw [comp_update_same Held.coll held thread _ (by rw [nothing]; rfl)]
    exact books.collections
  cursors := by
    rw [comp_update_same Held.cursor held thread _ (by rw [nothing]; rfl)]
    exact books.cursors
  collectionClient := OfClient.update books.collectionClient nofun
  cursorClient := OfClient.update books.cursorClient nofun
  uses := books.uses

theorem same
    {mine : Held} (books : Books system held) (holds : held thread = mine) :
    Books system (Function.update held thread mine) := by
  rw [← holds, Function.update_eq_self]
  exact books

theorem push
    (books : Books system held) (holds : (held thread).client = some client) :
    Books (system.push client)
      (Function.update held thread ((held thread).setClient none)) where
  owner client' other := by
    have popped : system.owner client = some thread := (books.owner client thread).mpr holds
    by_cases isThread : other = thread
    · subst isThread
      rw [Function.update_self]
      refine iff_of_false ?_ nofun
      by_cases isClient : client' = client
      · rw [isClient, System.push_owner, Function.update_self]
        exact nofun
      · rw [System.push_owner, Function.update_of_ne isClient, books.owner, holds]
        exact fun same => isClient (Option.some.inj same).symm
    · rw [Function.update_of_ne isThread, ← books.owner]
      by_cases isClient : client' = client
      · rw [isClient, System.push_owner, Function.update_self, popped]
        exact iff_of_false nofun fun same => isThread (Option.some.inj same).symm
      · rw [System.push_owner, Function.update_of_ne isClient]
  pushed client' := by
    by_cases isClient : client' = client
    · subst isClient
      have before := books.pushed client'
      rw [(books.owner client' thread).mpr holds] at before
      simp only [System.push, Function.update_self, before]
      rfl
    · simp only [System.push, Function.update_of_ne isClient]
      exact books.pushed client'
  collections := by
    rw [comp_update_same Held.coll held thread ((held thread).setClient none) rfl]
    exact books.collections
  cursors := by
    rw [comp_update_same Held.cursor held thread ((held thread).setClient none) rfl]
    exact books.cursors
  collectionClient := OfClient.update books.collectionClient nofun
  cursorClient := OfClient.update books.cursorClient nofun
  uses := books.uses

theorem obtainCollection
    (books : Books system held) (holds : (held thread).client = some client)
    (nothing : (held thread).coll = none) :
    Books (system.obtainCollection client)
      (Function.update held thread
        ((held thread).setColl (some system.collections.made))) where
  owner := books.owner_same rfl
  pushed := books.pushed
  collections := by
    rw [Function.comp_update]
    exact books.collections.obtain nothing
  cursors := by
    rw [comp_update_same Held.cursor held thread
      ((held thread).setColl (some system.collections.made)) rfl]
    exact books.cursors
  collectionClient := OfClient.obtain books.collectionClient books.collections holds rfl
  cursorClient := OfClient.update books.cursorClient (books.cursorClient thread)
  uses := books.uses

theorem obtainCursor
    (books : Books system held) (holds : (held thread).client = some client)
    (nothing : (held thread).cursor = none) :
    Books (system.obtainCursor client)
      (Function.update held thread
        ((held thread).setCursor (some system.cursors.made))) where
  owner := books.owner_same rfl
  pushed := books.pushed
  collections := by
    rw [comp_update_same Held.coll held thread
      ((held thread).setCursor (some system.cursors.made)) rfl]
    exact books.collections
  cursors := by
    rw [Function.comp_update]
    exact books.cursors.obtain nothing
  collectionClient := OfClient.update books.collectionClient (books.collectionClient thread)
  cursorClient := OfClient.obtain books.cursorClient books.cursors holds rfl
  uses := books.uses

theorem destroyCollection
    {coll : Nat} (books : Books system held) (unheld : (held thread).client = none)
    (holds : (held thread).coll = some coll) :
    Books { system with collections := system.collections.destroy coll }
      (Function.update held thread ((held thread).setColl none)) where
  owner := books.owner_same rfl
  pushed := books.pushed
  collections := by
    rw [Function.comp_update]
    exact books.collections.destroy holds
  cursors := by
    rw [comp_update_same Held.cursor held thread ((held thread).setColl none) rfl]
    exact books.cursors
  collectionClient := OfClient.update books.collectionClient nofun
  cursorClient :=
    OfClient.update books.cursorClient fun _ _ holds' _ => nomatch unheld.symm.trans holds'
  uses := books.uses

theorem destroyCursor
    {cursor : Nat} (books : Books system held) (unheld : (held thread).client = none)
    (holds : (held thread).cursor = some cursor) :
    Books { system with cursors := system.cursors.destroy cursor }
      (Function.update held thread ((held thread).setCursor none)) where
  owner := books.owner_same rfl
  pushed := books.pushed
  collections := by
    rw [comp_update_same Held.coll held thread ((held thread).setCursor none) rfl]
    exact books.collections
  cursors := by
    rw [Function.comp_update]
    exact books.cursors.destroy holds
  collectionClient :=
    OfClient.update books.collectionClient fun _ _ holds' _ => nomatch unheld.symm.trans holds'
  cursorClient := OfClient.update books.cursorClient nofun
  uses := books.uses

end Books

theorem OnCourse.goto
    {system : System Thread} {held : Thread → Held} {thread : Thread} {code : Option Code}
    {new : Held} (onCourse : OnCourse system held)
    (settles : match code with
      | some code => Settles code new
      | none => new = .nothing) :
    OnCourse (system.goto thread code) (Function.update held thread new) := by
  intro other
  by_cases same : other = thread
  · subst same
    simp only [System.goto, Function.update_self]
    exact settles
  · simp only [System.goto, Function.update_of_ne same]
    exact onCourse other

def Inv (system : System Thread) : Prop :=
  ∃ held, OnCourse system held ∧ Books system held

omit [DecidableEq Thread] in
theorem Inv.start : Inv (System.start : System Thread) := by
  refine ⟨fun _ => .nothing, fun _ => rfl, ?_⟩
  exact ⟨fun _ _ => iff_of_false nofun nofun, fun _ => rfl, .start, .start, nofun, nofun, nofun⟩

section Steps

variable {system after : System Thread} {held : Thread → Held} {thread : Thread}
  {answer : Answer} {code : Code} {event : Event Thread} {history : List (Event Thread)}

theorem Inv.driverCall
    (onCourse : OnCourse system held) (books : Books system held)
    (running : system.code thread = some code)
    (called : driverCall system thread answer code = some after) : Inv after := by
  have settles : Settles code (held thread) := by
    have course := onCourse thread
    rwa [running] at course
  generalize mine : held thread = holding at settles
  have holdsClient : (held thread).client = holding.client := congrArg Held.client mine
  have holdsColl : (held thread).coll = holding.coll := congrArg Held.coll mine
  have holdsCursor : (held thread).cursor = holding.cursor := congrArg Held.cursor mine
  cases settles with
  | done =>
      obtain rfl := Option.some.inj called
      exact ⟨_, onCourse.goto rfl, (books.same mine).goto none⟩
  | @clientPoolPop next fails gives =>
      simp only [Mongo.driverCall] at called
      split at called
      case h_1 =>
        obtain rfl := Option.some.inj called
        exact ⟨_, onCourse.goto fails, (books.same mine).goto _⟩
      case h_2 client _ =>
        obtain ⟨free, same⟩ := Option.ite_none_right_eq_some.mp called
        obtain rfl := Option.some.inj same
        exact ⟨_, onCourse.goto (gives client), (books.pop mine free).goto _⟩
  | @clientGetCollection client next fails gives =>
      have used := books.use (books.owned holdsClient)
      simp only [Mongo.driverCall] at called
      split at called
      · obtain rfl := Option.some.inj called
        have obtained := used.obtainCollection holdsClient holdsColl
        rw [mine] at obtained
        exact ⟨_, onCourse.goto (gives _), obtained.goto _⟩
      · obtain rfl := Option.some.inj called
        exact ⟨_, onCourse.goto fails, (used.same mine).goto _⟩
  | @collection op client coll next goes =>
      have used := books.useCollection holdsClient holdsColl
      obtain rfl := Option.some.inj called
      exact ⟨_, onCourse.goto (goes answer.succeeds), (used.same mine).goto _⟩
  | @collectionFind client coll next fails gives =>
      have same := books.collectionClient thread client coll holdsClient holdsColl
      have used := books.useCollection holdsClient holdsColl
      simp only [Mongo.driverCall] at called
      split at called
      · obtain rfl := Option.some.inj called
        have obtained := used.obtainCursor holdsClient holdsCursor
        rw [mine] at obtained
        rw [same] at obtained ⊢
        exact ⟨_, onCourse.goto (gives _), obtained.goto _⟩
      · obtain rfl := Option.some.inj called
        exact ⟨_, onCourse.goto fails, (used.same mine).goto _⟩
  | @cursorNext client coll cursor next goes =>
      have same := books.cursorClient thread client cursor holdsClient holdsCursor
      have used := books.use (books.owned (holdsClient.trans (congrArg some same.symm)))
      obtain rfl := Option.some.inj called
      exact ⟨_, onCourse.goto (goes answer.succeeds), (used.same mine).goto _⟩
  | @clientPoolPush client coll cursor next goes =>
      obtain rfl := Option.some.inj called
      have pushed := (books.use (books.owned holdsClient)).push holdsClient
      rw [mine] at pushed
      exact ⟨_, onCourse.goto goes, pushed.goto _⟩
  | @collectionDestroy coll cursor next goes =>
      obtain rfl := Option.some.inj called
      have used := books.use (books.unowned holdsClient (system.collectionClient coll))
      have destroyed := used.destroyCollection holdsClient holdsColl
      rw [mine] at destroyed
      exact ⟨_, onCourse.goto goes, destroyed.goto _⟩
  | @cursorDestroy coll cursor next goes =>
      obtain rfl := Option.some.inj called
      have used := books.use (books.unowned holdsClient (system.cursorClient cursor))
      have destroyed := used.destroyCursor holdsClient holdsCursor
      rw [mine] at destroyed
      exact ⟨_, onCourse.goto goes, destroyed.goto _⟩

theorem Inv.step (inv : Inv system) (stepped : systemStep system event = some after) :
    Inv after := by
  obtain ⟨held, onCourse, books⟩ := inv
  cases event with
  | call thread operation =>
      simp only [systemStep] at stepped
      split at stepped
      case h_2 => cases stepped
      case h_1 idle =>
        have nothing : held thread = .nothing := by
          have course := onCourse thread
          rwa [idle] at course
        obtain rfl := Option.some.inj stepped
        exact ⟨_, onCourse.goto (settles_code operation), (books.same nothing).goto _⟩
  | driver thread answer =>
      obtain ⟨code, running, called⟩ := Option.bind_eq_some_iff.mp stepped
      exact .driverCall onCourse books running called

theorem MongoRun.inv (run : MongoRun history system) : Inv system := by
  refine Trace.invariant (fun _ system => Inv system) ?_ ?_ run
  · rintro _ rfl
    exact .start
  · intro history before event after inv stepped
    exact inv.step stepped

omit [DecidableEq Thread] in
theorem OnCourse.destroyedOnce
    {handles : Handles} (onCourse : OnCourse system held) (field : Held → Option Nat)
    (nothing : field .nothing = none) (kept : handles.Kept (field ∘ held)) :
    DestroyedOnce system handles := by
  refine ⟨field ∘ held, kept, ?_⟩
  intro thread idle
  have course := onCourse thread
  rw [idle] at course
  exact (congrArg field course).trans nothing

/-- The books are always balanced; a client is used by a thread that has not
popped it exactly when a collection or a cursor is destroyed. -/
theorem clients_exclusive_iff
    (run : MongoRun history system) :
    Meets system ↔ ∀ use ∈ system.uses, use.destroys = false := by
  obtain ⟨held, onCourse, books⟩ := run.inv
  constructor
  · intro meets use member
    exact (books.uses use member).mp (meets.exclusive use member)
  · intro undestroyed
    refine ⟨?_, ?_, ?_, ?_⟩
    · intro use member
      exact (books.uses use member).mpr (undestroyed use member)
    · intro client
      have pushed := books.pushed client
      cases popped : system.owner client with
      | none =>
          rw [popped] at pushed
          exact .inl ⟨rfl, pushed⟩
      | some thread =>
          rw [popped] at pushed
          refine .inr ⟨thread, rfl, ?_, pushed⟩
          intro idle
          have course := onCourse thread
          rw [idle] at course
          have holds := (books.owner client thread).mp popped
          rw [course] at holds
          cases holds
    · exact onCourse.destroyedOnce Held.coll rfl books.collections
    · exact onCourse.destroyedOnce Held.cursor rfl books.cursors

end Steps

end Systems

def noCollection : List (Event Bool) :=
  let answer : Answer := { client := some 0, succeeds := false }
  [.driver false answer, .driver false answer, .driver false answer, .driver false answer,
    .call false (.insertDoc false)]

theorem clients_exclusive_iff_no_collection :
    ∃ system, MongoRun noCollection system ∧ Meets system := by
  have run : MongoRun noCollection _ := Trace.of_replay rfl rfl
  refine ⟨_, run, (clients_exclusive_iff run).mpr ?_⟩
  intro use member
  rcases member with _ | ⟨_, _ | ⟨_, ⟨⟩⟩⟩
  · rfl
  · rfl

/-- Another thread pops the client between the push and the destroy; newest
event first. -/
def popBeforeDestroy : List (Event Bool) :=
  let answer : Answer := { client := some 0, succeeds := true }
  [.driver false answer, .driver true answer, .call true (.insertDoc false),
    .driver false answer, .driver false answer, .driver false answer, .driver false answer,
    .call false (.insertDoc false)]

/-- The collection is destroyed while its client is in use elsewhere. -/
theorem client_used_after_push :
    ∃ system, MongoRun popBeforeDestroy system ∧
      (∃ use ∈ system.uses, use.thread = false ∧ use.owner = some true) ∧ ¬ Meets system := by
  refine ⟨_, Trace.of_replay rfl rfl, ⟨_, List.mem_cons_self, rfl, rfl⟩, ?_⟩
  intro meets
  cases meets.exclusive _ List.mem_cons_self

end Mongo

end Tpt
