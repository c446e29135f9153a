import Tpt.Lib.Handles
import Tpt.Lib.Trace

/-!
The operations of `mongo_api.c` on a pool of clients.

An operation is the sequence of driver calls that it makes, each with what is
done for every answer.  Threads run operations on one pool, one driver call at
a time; a collection or a cursor belongs to the client it was obtained from.
-/

namespace Tpt

namespace Mongo

universe u

/-- The codes of `mongo_errors.h` that the operations return. -/
inductive MongoErr where
  | success
  | nullParams
  | ttlInvalid
  | poolPop
  | collGet
  | collInsert
  | collRemove
  | collIndexCreate
  | collUpdate
  | collFind
  deriving DecidableEq

inductive CollectionOp where
  | insert
  | remove
  | createIndex (expireAfterSeconds : Int)
  | update
  deriving DecidableEq

/-- What is left of an operation; it returns a code and `*exists`. -/
inductive Code where
  | done (ret : MongoErr) (found : Option Bool)
  | clientPoolPop (next : Option Nat → Code)
  | clientGetCollection (client : Nat) (next : Option Nat → Code)
  | collection (op : CollectionOp) (coll : Nat) (next : Bool → Code)
  | collectionFind (coll : Nat) (next : Option Nat → Code)
  | cursorNext (cursor : Nat) (next : Bool → Code)
  | clientPoolPush (client : Nat) (next : Code)
  | collectionDestroy (coll : Nat) (next : Code)
  | cursorDestroy (cursor : Nat) (next : Code)

/-- The common body of the four operations that make one call on a
collection. -/
def onCollection (op : CollectionOp) (failed : MongoErr) : Code :=
  .clientPoolPop fun
    | none => .done .poolPop none
    | some client =>
        .clientGetCollection client fun
          | none => .clientPoolPush client (.done .collGet none)
          | some coll =>
              .collection op coll fun
                | false =>
                    .clientPoolPush client (.collectionDestroy coll (.done failed none))
                | true =>
                    .clientPoolPush client (.collectionDestroy coll (.done .success none))

/-- `nullParams` says that some parameter is `NULL`. -/
def mongoInsertDoc (nullParams : Bool) : Code :=
  if nullParams then .done .nullParams none else onCollection .insert .collInsert

def mongoDocRemove (nullParams : Bool) : Code :=
  if nullParams then .done .nullParams none else onCollection .remove .collRemove

def mongoCollCreateTtlIndex (nullParams : Bool) (ttl : Int) : Code :=
  if nullParams then .done .nullParams none
  else if ttl < 0 then .done .ttlInvalid none
  else onCollection (.createIndex ttl) .collIndexCreate

def mongoDocUpdate (nullParams : Bool) : Code :=
  if nullParams then .done .nullParams none else onCollection .update .collUpdate

def mongoDocExists (nullParams : Bool) : Code :=
  if nullParams then .done .nullParams none
  else
    .clientPoolPop fun
      | none => .done .poolPop none
      | some client =>
          .clientGetCollection client fun
            | none => .clientPoolPush client (.done .collGet none)
            | some coll =>
                .collectionFind coll fun
                  | none =>
                      .clientPoolPush client (.collectionDestroy coll (.done .collFind none))
                  | some cursor =>
                      .cursorNext cursor fun found =>
                        .clientPoolPush client (.collectionDestroy coll
                          (.cursorDestroy cursor (.done .success (some found))))

inductive Operation where
  | insertDoc (nullParams : Bool)
  | docRemove (nullParams : Bool)
  | collCreateTtlIndex (nullParams : Bool) (ttl : Int)
  | docUpdate (nullParams : Bool)
  | docExists (nullParams : Bool)

def Operation.code : Operation → Code
  | .insertDoc nullParams => mongoInsertDoc nullParams
  | .docRemove nullParams => mongoDocRemove nullParams
  | .collCreateTtlIndex nullParams ttl => mongoCollCreateTtlIndex nullParams ttl
  | .docUpdate nullParams => mongoDocUpdate nullParams
  | .docExists nullParams => mongoDocExists nullParams

/-- A use of a client by a thread, with the thread that had popped the client
at that moment. -/
structure Use (Thread : Type u) where
  thread : Thread
  client : Nat
  owner : Option Thread
  destroys : Bool

/-- The threads and the driver: who has popped a client, how often it was
popped and pushed, the collections and cursors with their clients, and the uses
made, newest first. -/
structure System (Thread : Type u) where
  code : Thread → Option Code
  owner : Nat → Option Thread
  pops : Nat → Nat
  pushes : Nat → Nat
  collections : Handles
  collectionClient : Nat → Nat
  cursors : Handles
  cursorClient : Nat → Nat
  uses : List (Use Thread)

/-- The answer to a driver call: a client, or whether the call succeeds. -/
structure Answer where
  client : Option Nat
  succeeds : Bool

/-- A thread calls an operation, or the next driver call of its operation is
made. -/
inductive Event (Thread : Type u) where
  | call (thread : Thread) (operation : Operation)
  | driver (thread : Thread) (answer : Answer)

def System.start {Thread : Type u} : System Thread :=
  { code := fun _ => none
    owner := fun _ => none
    pops := fun _ => 0
    pushes := fun _ => 0
    collections := .empty
    collectionClient := fun _ => 0
    cursors := .empty
    cursorClient := fun _ => 0
    uses := [] }

section Steps

variable {Thread : Type u} [DecidableEq Thread]

namespace System

def goto (system : System Thread) (thread : Thread) (code : Option Code) : System Thread :=
  { system with code := Function.update system.code thread code }

def use (system : System Thread) (thread : Thread) (client : Nat) (destroys : Bool) :
    System Thread :=
  { system with uses := ⟨thread, client, system.owner client, destroys⟩ :: system.uses }

def pop (system : System Thread) (thread : Thread) (client : Nat) : System Thread :=
  { system with
    owner := Function.update system.owner client (some thread)
    pops := Function.update system.pops client (system.pops client + 1) }

def push (system : System Thread) (client : Nat) : System Thread :=
  { system with
    owner := Function.update system.owner client none
    pushes := Function.update system.pushes client (system.pushes client + 1) }

def obtainCollection (system : System Thread) (client : Nat) : System Thread :=
  { system with
    collections := system.collections.obtain
    collectionClient :=
      Function.update system.collectionClient system.collections.made client }

def obtainCursor (system : System Thread) (client : Nat) : System Thread :=
  { system with
    cursors := system.cursors.obtain
    cursorClient := Function.update system.cursorClient system.cursors.made client }

section Fields

variable (system : System Thread) (thread : Thread) (client : Nat)

omit [DecidableEq Thread] in
theorem pop_owner :
    (system.pop thread client).owner = Function.update system.owner client (some thread) := rfl

omit [DecidableEq Thread] in
theorem push_owner :
    (system.push client).owner = Function.update system.owner client none := rfl

end Fields

end System

/-- The next driver call of a thread.  The pool gives out only clients that
nobody has popped. -/
def driverCall (system : System Thread) (thread : Thread) (answer : Answer) :
    Code → Option (System Thread)
  | .done _ _ => some (system.goto thread none)
  | .clientPoolPop next =>
      match answer.client with
      | none => some (system.goto thread (next none))
      | some client =>
          if system.owner client = none then
            some ((system.pop thread client).goto thread (next (some client)))
          else none
  | .clientGetCollection client next =>
      let system := system.use thread client false
      if answer.succeeds then
        some ((system.obtainCollection client).goto thread (next (some system.collections.made)))
      else some (system.goto thread (next none))
  | .collection _ coll next =>
      some ((system.use thread (system.collectionClient coll) false).goto thread
        (next answer.succeeds))
  | .collectionFind coll next =>
      let client := system.collectionClient coll
      let system := system.use thread client false
      if answer.succeeds then
        some ((system.obtainCursor client).goto thread (next (some system.cursors.made)))
      else some (system.goto thread (next none))
  | .cursorNext cursor next =>
      some ((system.use thread (system.cursorClient cursor) false).goto thread
        (next answer.succeeds))
  | .clientPoolPush client next =>
      some (((system.use thread client false).push client).goto thread next)
  | .collectionDestroy coll next =>
      let system := system.use thread (system.collectionClient coll) true
      some ({ system with collections := system.collections.destroy coll }.goto thread next)
  | .cursorDestroy cursor next =>
      let system := system.use thread (system.cursorClient cursor) true
      some ({ system with cursors := system.cursors.destroy cursor }.goto thread next)

def systemStep (system : System Thread) : Event Thread → Option (System Thread)
  | .call thread operation =>
      match system.code thread with
      | none => some (system.goto thread operation.code)
      | some _ => none
  | .driver thread answer =>
      (system.code thread).bind fun code => driverCall system thread answer code

def MongoRun : List (Event Thread) → System Thread → Prop :=
  Trace (fun system => system = System.start)
    (fun system event after => systemStep system event = some after)

end Steps

end Mongo

end Tpt
