import Tpt.Lib.Progress
import Tpt.Mongo.Exclusive

/-!
The operations of `mongo_api.c` on a pool of so many clients, where
`mongoc_client_pool_pop` waits until one of them is free.

No operation keeps a client, so that every thread that waits for one gets it as
soon as the others have finished.
-/

namespace Tpt

namespace Mongo

universe u

inductive Code.Within : Nat → Code → Prop where
  | done {left ret found} : Within (left + 1) (.done ret found)
  | clientPoolPop {left next} :
      (∀ client, Within left (next client)) → Within (left + 1) (.clientPoolPop next)
  | clientGetCollection {left client next} :
      (∀ coll, Within left (next coll)) → Within (left + 1) (.clientGetCollection client next)
  | collection {left op coll next} :
      (∀ succeeds, Within left (next succeeds)) → Within (left + 1) (.collection op coll next)
  | collectionFind {left coll next} :
      (∀ cursor, Within left (next cursor)) → Within (left + 1) (.collectionFind coll next)
  | cursorNext {left cursor next} :
      (∀ found, Within left (next found)) → Within (left + 1) (.cursorNext cursor next)
  | clientPoolPush {left client next} :
      Within left next → Within (left + 1) (.clientPoolPush client next)
  | collectionDestroy {left coll next} :
      Within left next → Within (left + 1) (.collectionDestroy coll next)
  | cursorDestroy {left cursor next} :
      Within left next → Within (left + 1) (.cursorDestroy cursor next)

def longest : Nat := 8

theorem within_onCollection (op : CollectionOp) (failed : MongoErr) :
    (onCollection op failed).Within longest := by
  refine .clientPoolPop fun client => ?_
  cases client with
  | none => exact .done
  | some client =>
      refine .clientGetCollection fun coll => ?_
      cases coll with
      | none => exact .clientPoolPush .done
      | some coll =>
          refine .collection fun succeeds => ?_
          cases succeeds with
          | false => exact .clientPoolPush (.collectionDestroy .done)
          | true => exact .clientPoolPush (.collectionDestroy .done)

theorem Code.Within.checked
    {check : Prop} [Decidable check] {left : Nat} {ret : MongoErr} {found : Option Bool}
    {code : Code} (within : code.Within (left + 1)) :
    (if check then .done ret found else code).Within (left + 1) := by
  split
  · exact .done
  · exact within

theorem within_mongoDocExists (nullParams : Bool) :
    (mongoDocExists nullParams).Within longest := by
  refine .checked (.clientPoolPop fun client => ?_)
  cases client with
  | none => exact .done
  | some client =>
      refine .clientGetCollection fun coll => ?_
      cases coll with
      | none => exact .clientPoolPush .done
      | some coll =>
          refine .collectionFind fun cursor => ?_
          cases cursor with
          | none => exact .clientPoolPush (.collectionDestroy .done)
          | some cursor =>
              exact .cursorNext fun found =>
                .clientPoolPush (.collectionDestroy (.cursorDestroy .done))

theorem within_code (operation : Operation) : operation.code.Within longest := by
  cases operation with
  | insertDoc nullParams => exact .checked (within_onCollection _ _)
  | docRemove nullParams => exact .checked (within_onCollection _ _)
  | collCreateTtlIndex nullParams ttl => exact .checked (.checked (within_onCollection _ _))
  | docUpdate nullParams => exact .checked (within_onCollection _ _)
  | docExists nullParams => exact within_mongoDocExists nullParams

section Systems

variable {Thread : Type u} [DecidableEq Thread]

/-- A driver call where a pop gets one of the clients of the pool; a pop that no
client is free for takes no step. -/
def Served (size : Nat) : Event Thread → Prop
  | .call _ _ => True
  | .driver _ answer => ∃ client < size, answer.client = some client

def PoolStep (size : Nat) (system : System Thread) (event : Event Thread)
    (after : System Thread) : Prop :=
  systemStep system event = some after ∧ Served size event

def PoolRun (size : Nat) : List (Event Thread) → System Thread → Prop :=
  Trace (fun system => system = System.start) (PoolStep size)

def Event.IsDriver : Event Thread → Prop
  | .call _ _ => False
  | .driver _ _ => True

/-- The steps while no thread calls another operation. -/
def DriverStep (size : Nat) (system : System Thread) (event : Event Thread)
    (after : System Thread) : Prop :=
  PoolStep size system event after ∧ event.IsDriver

/-- How many calls each thread has left at most. -/
def Fits (system : System Thread) (left : Thread → Nat) : Prop :=
  ∀ thread code, system.code thread = some code → code.Within (left thread)

section Steps

variable {size : Nat} {system after : System Thread} {thread : Thread} {answer : Answer}
variable {code : Code} {event : Event Thread} {history onward : List (Event Thread)}
variable {left : Thread → Nat}

theorem driverCall_code
    {bound : Nat} (within : code.Within (bound + 1))
    (called : driverCall system thread answer code = some after) :
    ∃ next, after.code = Function.update system.code thread next ∧
      ∀ code, next = some code → code.Within bound := by
  cases within with
  | done =>
      obtain rfl := Option.some.inj called
      exact ⟨none, rfl, nofun⟩
  | @clientPoolPop _ next goes =>
      simp only [driverCall] at called
      split at called
      next =>
        obtain rfl := Option.some.inj called
        exact ⟨_, rfl, fun _ same => Option.some.inj same ▸ goes none⟩
      next client _ =>
        obtain ⟨_, same⟩ := Option.ite_none_right_eq_some.mp called
        obtain rfl := Option.some.inj same
        exact ⟨_, rfl, fun _ same => Option.some.inj same ▸ goes (some client)⟩
  | @clientGetCollection _ client next goes =>
      simp only [driverCall] at called
      split at called <;> obtain rfl := Option.some.inj called
      · exact ⟨_, rfl, fun _ same => Option.some.inj same ▸ goes _⟩
      · exact ⟨_, rfl, fun _ same => Option.some.inj same ▸ goes none⟩
  | @collectionFind _ coll next goes =>
      simp only [driverCall] at called
      split at called <;> obtain rfl := Option.some.inj called
      · exact ⟨_, rfl, fun _ same => Option.some.inj same ▸ goes _⟩
      · exact ⟨_, rfl, fun _ same => Option.some.inj same ▸ goes none⟩
  | collection goes | cursorNext goes =>
      obtain rfl := Option.some.inj called
      exact ⟨_, rfl, fun _ same => Option.some.inj same ▸ goes _⟩
  | clientPoolPush goes | collectionDestroy goes | cursorDestroy goes =>
      obtain rfl := Option.some.inj called
      exact ⟨_, rfl, fun _ same => Option.some.inj same ▸ goes⟩

theorem Fits.goto
    (fits : Fits system left) {next : Option Code} {bound : Nat}
    (codes : after.code = Function.update system.code thread next)
    (within : ∀ code, next = some code → code.Within bound) :
    Fits after (Function.update left thread bound) := by
  intro other code running
  rw [codes] at running
  by_cases same : other = thread
  · subst same
    rw [Function.update_self] at running ⊢
    exact within code running
  · rw [Function.update_of_ne same] at running ⊢
    exact fits other code running

theorem Fits.driver
    (fits : Fits system left) (stepped : systemStep system (.driver thread answer) = some after) :
    ∃ bound, left thread = bound + 1 ∧ Fits after (Function.update left thread bound) := by
  obtain ⟨code, running, called⟩ := Option.bind_eq_some_iff.mp stepped
  have within := fits thread code running
  obtain ⟨bound, exact⟩ : ∃ bound, left thread = bound + 1 := by
    cases count : left thread with
    | zero =>
        rw [count] at within
        cases within
    | succ bound => exact ⟨bound, rfl⟩
  rw [exact] at within
  obtain ⟨next, codes, goes⟩ := driverCall_code within called
  exact ⟨bound, exact, fits.goto codes goes⟩

theorem PoolRun.fits (run : PoolRun size history system) :
    ∃ left : Thread → Nat, Fits system left ∧ ∀ thread, left thread ≤ longest := by
  induction run with
  | start begins =>
      subst begins
      exact ⟨fun _ => 0, nofun, fun _ => Nat.zero_le _⟩
  | @next history system event after run stepped inductionHypothesis =>
      obtain ⟨left, fits, short⟩ := inductionHypothesis
      have bounded : ∀ {thread bound}, bound ≤ longest →
          ∀ other, Function.update left thread bound other ≤ longest := by
        intro thread bound small other
        by_cases same : other = thread
        · subst same
          rwa [Function.update_self]
        · rw [Function.update_of_ne same]
          exact short other
      cases event with
      | call thread operation =>
          have stepped := stepped.1
          simp only [systemStep] at stepped
          split at stepped
          next =>
            obtain rfl := Option.some.inj stepped
            refine ⟨_, fits.goto rfl ?_, bounded (le_refl longest)⟩
            exact fun _ same => Option.some.inj same ▸ within_code operation
          next => cases stepped
      | driver thread answer =>
          obtain ⟨bound, same, fits⟩ := fits.driver stepped.1
          refine ⟨_, fits, bounded ?_⟩
          exact (Nat.le_succ bound).trans (same.ge.trans (short thread))

theorem PoolRun.mongoRun (run : PoolRun size history system) : MongoRun history system :=
  run.imp And.left

def Event.caller : Event Thread → Thread
  | .call thread _ => thread
  | .driver thread _ => thread

theorem Fits.bounded
    (fits : Fits system left)
    (further : Trace (fun before => before = system) (DriverStep size) onward after)
    (thread : Thread) : (onward.map Event.caller).count thread ≤ left thread := by
  have counted : ∃ now, Fits after now ∧
      ∀ thread, (onward.map Event.caller).count thread + now thread = left thread := by
    induction further with
    | start same =>
        subst same
        exact ⟨left, fits, fun thread => Nat.zero_add _⟩
    | @next onward before event after further stepped inductionHypothesis =>
        obtain ⟨now, fits, counted⟩ := inductionHypothesis
        cases event with
        | call => exact stepped.2.elim
        | driver thread answer =>
            obtain ⟨bound, same, fits⟩ := fits.driver stepped.1.1
            refine ⟨_, fits, fun other => ?_⟩
            have earlier := counted other
            rw [List.map_cons, Event.caller]
            by_cases mine : other = thread
            · subst mine
              rw [List.count_cons_self, Function.update_self]
              omega
            · rw [List.count_cons_of_ne (Ne.symm mine), Function.update_of_ne mine]
              exact earlier
  obtain ⟨now, _, counted⟩ := counted
  exact (Nat.le_add_right _ _).trans (counted thread).le

/-- Every thread inside an operation has a call that it can make, unless it waits
for a client; and when all of them wait, all clients are free. -/
theorem Inv.idle
    (inv : Inv system) (some_client : 0 < size) (final : Final (DriverStep size) system)
    (thread : Thread) : system.code thread = none := by
  obtain ⟨held, onCourse, books⟩ := inv
  have goes : ∀ {thread code}, system.code thread = some code →
      (∀ next, code ≠ .clientPoolPop next) → False := by
    intro thread code running other
    have moves : ∃ after, Mongo.driverCall system thread ⟨some 0, true⟩ code = some after := by
      cases code with
      | clientPoolPop next => exact absurd rfl (other next)
      | done | clientGetCollection | collection | collectionFind | cursorNext | clientPoolPush
      | collectionDestroy | cursorDestroy => exact ⟨_, rfl⟩
    obtain ⟨after, moved⟩ := moves
    refine final (.driver thread ⟨some 0, true⟩) after ⟨⟨?_, 0, some_client, rfl⟩, trivial⟩
    rw [systemStep, running]
    exact moved
  have nothing : ∀ thread, (held thread).client = none := by
    intro thread
    have course := onCourse thread
    cases running : system.code thread with
    | none =>
        rw [running] at course
        rw [course]
        rfl
    | some code =>
        rw [running] at course
        cases code with
        | clientPoolPop next =>
            generalize held thread = holding at course
            cases course
            rfl
        | done | clientGetCollection | collection | collectionFind | cursorNext | clientPoolPush
        | collectionDestroy | cursorDestroy => exact (goes running fun _ => Code.noConfusion).elim
  cases running : system.code thread with
  | none => rfl
  | some code =>
      exfalso
      cases code with
      | clientPoolPop next =>
          have free : system.owner 0 = none := by
            cases owner : system.owner 0 with
            | none => rfl
            | some other =>
                have holds := (books.owner 0 other).mp owner
                rw [nothing other] at holds
                cases holds
          refine final (.driver thread ⟨some 0, true⟩)
            ((system.pop thread 0).goto thread (next (some 0)))
            ⟨⟨?_, 0, some_client, rfl⟩, trivial⟩
          rw [systemStep, running]
          simp only [Option.bind_some, Mongo.driverCall, free, if_true]
      | done | clientGetCollection | collection | collectionFind | cursorNext | clientPoolPush
      | collectionDestroy | cursorDestroy => exact goes running fun _ => Code.noConfusion

omit [DecidableEq Thread] in
theorem Inv.returned
    (inv : Inv system) (idle : ∀ thread, system.code thread = none) (client : Nat) :
    system.owner client = none ∧ system.pops client = system.pushes client := by
  obtain ⟨held, onCourse, books⟩ := inv
  have free : system.owner client = none := by
    cases owner : system.owner client with
    | none => rfl
    | some thread =>
        have course := onCourse thread
        rw [idle thread] at course
        have holds := (books.owner client thread).mp owner
        rw [course] at holds
        cases holds
  refine ⟨free, ?_⟩
  rw [books.pushed, if_pos free, Nat.add_zero]

theorem final_of_idle (idle : ∀ thread, system.code thread = none) :
    Final (DriverStep size) system := by
  rintro (⟨thread, operation⟩ | ⟨thread, answer⟩) after ⟨⟨stepped, _⟩, driver⟩
  · exact driver.elim
  · rw [systemStep, idle thread] at stepped
    cases stepped

/-- On a pool with a client, no thread waits for ever: without further calls
every run ends, after eight driver calls of each thread at most; it can only end
with every operation finished, and then every client is back in the pool. -/
theorem operations_complete
    [Fintype Thread] (run : PoolRun size history system) (some_client : 0 < size) :
    (∀ onward after, Trace (fun before => before = system) (DriverStep size) onward after →
      (∀ thread, (onward.map Event.caller).count thread ≤ 8) ∧
      onward.length ≤ 8 * Fintype.card Thread ∧
      (Final (DriverStep size) after ↔ ∀ thread, after.code thread = none) ∧
      ((∀ thread, after.code thread = none) →
        ∀ client, after.owner client = none ∧ after.pops client = after.pushes client)) ∧
    ∃ onward after, Trace (fun before => before = system) (DriverStep size) onward after ∧
      ∀ thread, after.code thread = none := by
  obtain ⟨left, fits, short⟩ := run.fits
  have each : ∀ onward after,
      Trace (fun before => before = system) (DriverStep size) onward after →
        ∀ thread, (onward.map Event.caller).count thread ≤ 8 :=
    fun onward after further thread => (fits.bounded further thread).trans (short thread)
  have bounded : ∀ onward after,
      Trace (fun before => before = system) (DriverStep size) onward after →
        onward.length ≤ 8 * Fintype.card Thread := by
    intro onward after further
    let callers : Multiset Thread := onward.map Event.caller
    have all : ∑ thread, callers.count thread = callers.card :=
      Multiset.sum_count_eq_card fun thread _ => Finset.mem_univ thread
    have most := Finset.sum_le_card_nsmul Finset.univ _ 8 fun thread _ =>
      each onward after further thread
    simp only [callers, Multiset.coe_count, Multiset.coe_card, List.length_map] at all
    rw [all, smul_eq_mul, Finset.card_univ] at most
    omega
  have inv : ∀ onward after,
      Trace (fun before => before = system) (DriverStep size) onward after → Inv after := by
    intro onward after further
    have run : PoolRun size (onward ++ history) after := Trace.append run (further.imp And.left)
    exact run.mongoRun.inv
  constructor
  · intro onward after further
    exact ⟨each onward after further, bounded onward after further,
      ⟨(inv onward after further).idle some_client, final_of_idle⟩,
      (inv onward after further).returned⟩
  · obtain ⟨onward, after, further, final⟩ := Trace.exists_final_of_bounded system bounded
    exact ⟨onward, after, further, (inv onward after further).idle some_client final⟩

/-- Two threads have called an operation on a pool of one client. -/
theorem operations_complete_two_threads :
    ∃ history system, PoolRun 1 history system ∧ system.code true ≠ none ∧
      ∃ onward after, Trace (fun before => before = system) (DriverStep 1) onward after ∧
        ∀ thread : Bool, after.code thread = none := by
  have first : PoolRun 1 [.call true (.insertDoc false)] _ := .next (.start rfl) ⟨rfl, trivial⟩
  have both : PoolRun 1 [.call false (.docExists false), .call true (.insertDoc false)] _ :=
    first.next ⟨rfl, trivial⟩
  exact ⟨_, _, both, nofun, (operations_complete both Nat.one_pos).2⟩

end Steps

end Systems

end Mongo

end Tpt
