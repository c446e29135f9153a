import Tpt.Supervisor.Bookkeeping

/-!
What `handle_child_exit` does for a child that ended badly, from the report of
`waitpid` to the next turn of `wait_for_child`.
-/

namespace Tpt

namespace Supervisor

/-- Regular steps, with signals only while the loop of `kill_all_children`
stays inside the table. -/
def Bounded (numChild : Int) (parent : Parent) (event : Event) : Prop :=
  Regular numChild parent event ∧ match event with
    | .signal => numChild ≤ maxChild
    | _ => True

def BoundedRun (numChild : Int) : List Event → Parent → Prop :=
  Trace (fun parent => parent = initialParent)
    (fun parent event after =>
      step numChild parent event = some after ∧ Bounded numChild parent event)

/-- The steps from a report until the parent waits again. -/
def Handling (numChild : Int) (start : Parent) : List Event → Parent → Prop :=
  Trace (fun parent => parent = start)
    (fun parent event after => step numChild parent event = some after ∧
      Bounded numChild parent event ∧ parent.control ≠ .wait)

def Event.isFork : Event → Bool
  | .forked _ => true
  | _ => false

def Event.isSignal : Event → Bool
  | .signal => true
  | _ => false

/-- The handling of one report goes on until the parent waits again, which it
does after finitely many steps of its own; by then it has forked once and the
new pid is where the old one was. -/
structure RestartsOnce (numChild : Int) (parent : Parent) (pid : Int) (report : Report) :
    Prop where
  progress : ∀ history after, Handling numChild (parent.reported pid report) history after →
    after.control ≠ .wait → ∃ event next, event.isSignal = false ∧
      step numChild after event = some next ∧ Bounded numChild after event
  finite : ∀ history after, Handling numChild (parent.reported pid report) history after →
    history.countP (fun event => !event.isSignal) ≤ 2 * maxChild + 1
  restarted : ∀ history after, Handling numChild (parent.reported pid report) history after →
    after.control = .wait → history.countP Event.isFork = 1 ∧
      ∃ slot new, slot < maxChild ∧ parent.childTable slot = pid ∧
        after.childTable = Function.update parent.childTable slot new ∧
        0 < new ∧ new ∉ parent.running.erase pid ∧
        after.running = insert new (parent.running.erase pid)

/-- How far the handling of the child in `slot` has come, and how often it has
forked. -/
inductive Stage (before : Parent) (pid : Int) (slot : Nat) : Nat → Parent → Prop where
  | searching {after : Parent} (i : Nat) : after.control = .handle pid i → i ≤ slot →
      after.childTable = before.childTable → after.running = before.running.erase pid →
      Stage before pid slot 0 after
  | storing {after : Parent} (new : Int) :
      after.control = .store (.handleChildExit pid) slot new →
      0 < new → new ∉ before.running.erase pid →
      after.childTable = before.childTable →
      after.running = insert new (before.running.erase pid) →
      Stage before pid slot 1 after
  | restarted {after : Parent} (new : Int) :
      (after.control = .wait ∨ ∃ i, after.control = .handle pid i ∧ slot < i) →
      0 < new → new ∉ before.running.erase pid →
      after.childTable = Function.update before.childTable slot new →
      after.running = insert new (before.running.erase pid) →
      Stage before pid slot 1 after

structure Ended (numChild : Int) (before : Parent) (pid : Int) (slot : Nat) : Prop where
  unclamped : Unclamped numChild
  inside : slot < clampChild numChild
  holds : before.childTable slot = pid
  only : ∀ other, other < clampChild numChild → before.childTable other = pid → other = slot
  blank : ∀ other, clampChild numChild ≤ other → before.childTable other = 0

section Stages

variable {numChild : Int} {before parent after : Parent} {pid : Int} {slot forks : Nat}
variable {event : Event}

inductive Turn (numChild : Int) (parent : Parent) (pid : Int) (i : Nat) :
    Event → Parent → Prop where
  | skipped : i < numChild → parent.childTable i ≠ pid →
      Turn numChild parent pid i .advance { parent with control := .handle pid (i + 1) }
  | handled : numChild ≤ i →
      Turn numChild parent pid i .advance { parent with control := .wait }
  | forked (result : Option Int) : i < numChild → parent.childTable i = pid →
      parent.mayFork result = true →
      Turn numChild parent pid i (.forked result) (parent.forked (.handleChildExit pid) i result)
  | signal : Turn numChild parent pid i .signal parent

theorem turn_of_stepped
    {i : Nat} (place : parent.control = .handle pid i)
    (stepped : Stepped numChild parent event after) : Turn numChild parent pid i event after := by
  cases stepped with
  | skipped other index otherPlace inside different =>
      obtain ⟨rfl, rfl⟩ := Control.handle.inj (place.symm.trans otherPlace)
      exact .skipped inside different
  | handled other index otherPlace finished =>
      obtain ⟨rfl, rfl⟩ := Control.handle.inj (place.symm.trans otherPlace)
      exact .handled finished
  | forked result caller index allowed site =>
      simp only [Parent.forkSite, place] at site
      obtain ⟨⟨inside, found⟩, same⟩ := Option.ite_none_right_eq_some.mp site
      obtain ⟨rfl, rfl⟩ := Prod.mk.inj (Option.some.inj same)
      exact .forked result inside found allowed
  | signal => exact .signal
  | created _ otherPlace _ => cases place.symm.trans otherPlace
  | stored _ _ _ otherPlace => cases place.symm.trans otherPlace
  | drained otherPlace _ => cases place.symm.trans otherPlace
  | interrupted waiting => cases place.symm.trans (of_decide_eq_true waiting).1
  | waitError waiting => cases place.symm.trans (of_decide_eq_true waiting).1
  | reported _ _ waiting _ => cases place.symm.trans (of_decide_eq_true waiting).1

theorem stored_of_stepped
    {caller : Caller} {new : Int} (place : parent.control = .store caller slot new)
    (stepped : Stepped numChild parent event after) :
    (event = .advance ∧ after = parent.storePid caller slot new) ∨
      (event = .signal ∧ after = parent) := by
  cases stepped with
  | stored caller index other otherPlace =>
      obtain ⟨rfl, rfl, rfl⟩ := Control.store.inj (place.symm.trans otherPlace)
      exact .inl ⟨rfl, rfl⟩
  | signal => exact .inr ⟨rfl, rfl⟩
  | created _ otherPlace _ => cases place.symm.trans otherPlace
  | drained otherPlace _ => cases place.symm.trans otherPlace
  | skipped _ _ otherPlace _ _ => cases place.symm.trans otherPlace
  | handled _ _ otherPlace _ => cases place.symm.trans otherPlace
  | forked _ _ _ _ site => simp [Parent.forkSite, place] at site
  | interrupted waiting => cases place.symm.trans (of_decide_eq_true waiting).1
  | waitError waiting => cases place.symm.trans (of_decide_eq_true waiting).1
  | reported _ _ waiting _ => cases place.symm.trans (of_decide_eq_true waiting).1

theorem Stage.searching_step
    (ended : Ended numChild before pid slot) {i : Nat} (sought : i ≤ slot)
    (place : parent.control = .handle pid i) (table : parent.childTable = before.childTable)
    (running : parent.running = before.running.erase pid)
    (turn : Turn numChild parent pid i event after) (regular : Regular numChild parent event) :
    Stage before pid slot (if event.isFork then 1 else 0) after := by
  cases turn with
  | skipped inside different =>
      refine .searching (i + 1) rfl (Nat.lt_of_le_of_ne sought ?_) table running
      rintro rfl
      rw [table] at different
      exact different ended.holds
  | handled finished =>
      have bound := clampChild_of_unclamped ended.unclamped
      have inside := ended.inside
      omega
  | forked result inside found allowed =>
      rw [table] at found
      obtain rfl := ended.only i (lt_clampChild ended.unclamped inside) found
      cases result with
      | none => exact regular.elim
      | some new =>
          obtain ⟨positive, fresh⟩ := of_decide_eq_true allowed
          rw [running] at fresh
          refine .storing new rfl positive fresh table ?_
          exact congrArg (insert new) running
  | signal => exact .searching i place sought table running

theorem Stage.storing_step
    {new : Int} (place : parent.control = .store (.handleChildExit pid) slot new)
    (positive : 0 < new) (fresh : new ∉ before.running.erase pid)
    (table : parent.childTable = before.childTable)
    (running : parent.running = insert new (before.running.erase pid))
    (stepped : Stepped numChild parent event after) :
    event.isFork = false ∧ Stage before pid slot 1 after := by
  rcases stored_of_stepped place stepped with ⟨rfl, rfl⟩ | ⟨rfl, rfl⟩
  · refine ⟨rfl, .restarted new (.inr ⟨slot + 1, rfl, Nat.lt_succ_self slot⟩) positive fresh
      ?_ running⟩
    exact congrArg (Function.update · slot new) table
  · exact ⟨rfl, .storing new place positive fresh table running⟩

theorem Stage.restarted_step
    (ended : Ended numChild before pid slot) {i : Nat} {new : Int} (passed : slot < i)
    (place : parent.control = .handle pid i)
    (positive : 0 < new) (fresh : new ∉ before.running.erase pid)
    (table : parent.childTable = Function.update before.childTable slot new)
    (running : parent.running = insert new (before.running.erase pid))
    (turn : Turn numChild parent pid i event after) :
    event.isFork = false ∧ Stage before pid slot 1 after := by
  cases turn with
  | skipped inside different =>
      exact ⟨rfl, .restarted new (.inr ⟨i + 1, rfl, Nat.lt_succ_of_lt passed⟩) positive fresh
        table running⟩
  | handled finished => exact ⟨rfl, .restarted new (.inl rfl) positive fresh table running⟩
  | forked result inside found allowed =>
      rw [table, Function.update_of_ne (Nat.ne_of_gt passed)] at found
      have same := ended.only i (lt_clampChild ended.unclamped inside) found
      exact absurd same (Nat.ne_of_gt passed)
  | signal =>
      exact ⟨rfl, .restarted new (.inr ⟨i, place, passed⟩) positive fresh table running⟩

theorem Stage.step
    (stage : Stage before pid slot forks parent) (ended : Ended numChild before pid slot)
    (stepped : Stepped numChild parent event after) (regular : Regular numChild parent event)
    (busy : parent.control ≠ .wait) :
    Stage before pid slot (forks + if event.isFork then 1 else 0) after := by
  cases stage with
  | searching i place sought table running =>
      rw [Nat.zero_add]
      exact searching_step ended sought place table running (turn_of_stepped place stepped) regular
  | storing new place positive fresh table running =>
      obtain ⟨quiet, next⟩ := storing_step place positive fresh table running stepped
      rw [quiet]
      exact next
  | restarted new place positive fresh table running =>
      rcases place with waits | ⟨i, place, passed⟩
      · exact absurd waits busy
      · obtain ⟨quiet, next⟩ := restarted_step ended passed place positive fresh table running
          (turn_of_stepped place stepped)
        rw [quiet]
        exact next

def Parent.work (numChild : Int) (parent : Parent) : Nat :=
  match parent.control with
  | .handle _ i => 2 * (clampChild numChild - i) + 1
  | .store _ index _ => 2 * (clampChild numChild - index)
  | _ => 0

theorem work_turn
    {i : Nat} (unclamped : Unclamped numChild) (place : parent.control = .handle pid i)
    (turn : Turn numChild parent pid i event after) :
    after.work numChild + (if event.isSignal then 0 else 1) ≤ parent.work numChild := by
  cases turn with
  | skipped inside _ =>
      have small := lt_clampChild unclamped inside
      simp only [Parent.work, place, Event.isSignal, Bool.false_eq_true, if_false]
      omega
  | handled _ => simp [Parent.work, place, Event.isSignal]
  | forked result inside _ _ =>
      cases result with
      | none => simp [Parent.work, Parent.forked, place, Event.isSignal]
      | some new => simp [Parent.work, Parent.forked, place, Event.isSignal]
  | signal => simp [Event.isSignal]

theorem Stage.work_step
    (stage : Stage before pid slot forks parent) (ended : Ended numChild before pid slot)
    (stepped : Stepped numChild parent event after) (busy : parent.control ≠ .wait) :
    after.work numChild + (if event.isSignal then 0 else 1) ≤ parent.work numChild := by
  cases stage with
  | searching i place _ _ _ => exact work_turn ended.unclamped place (turn_of_stepped place stepped)
  | storing new place positive fresh table running =>
      have inside := ended.inside
      rcases stored_of_stepped place stepped with ⟨rfl, rfl⟩ | ⟨rfl, rfl⟩
      · simp only [Parent.work, Parent.storePid, place, Event.isSignal, Bool.false_eq_true,
          if_false]
        omega
      · simp [Event.isSignal]
  | restarted new place _ _ _ _ =>
      rcases place with waits | ⟨i, place, _⟩
      · exact absurd waits busy
      · exact work_turn ended.unclamped place (turn_of_stepped place stepped)

theorem exists_new_pid (used : Finset Int) : ∃ pid, 0 < pid ∧ pid ∉ used := by
  obtain ⟨value, new⟩ := Infinite.exists_notMem_finset (insert 0 (used.image Int.toNat))
  rw [Finset.mem_insert, not_or] at new
  refine ⟨value, Int.natCast_pos.mpr (Nat.pos_of_ne_zero new.1), ?_⟩
  intro member
  exact new.2 (Finset.mem_image.mpr ⟨value, member, Int.toNat_natCast value⟩)

theorem bounded_advance : Bounded numChild parent .advance := ⟨trivial, trivial⟩

theorem turn_progress
    {i : Nat} (place : parent.control = .handle pid i)
    (blank : ∀ other, clampChild numChild ≤ other → parent.childTable other = 0) :
    ∃ event next, event.isSignal = false ∧ step numChild parent event = some next ∧
      Bounded numChild parent event := by
  by_cases inside : i < numChild
  · by_cases found : parent.childTable i = pid
    · obtain ⟨new, positive, fresh⟩ := exists_new_pid
        (parent.running ∪ (Finset.range (clampChild numChild)).image parent.childTable)
      rw [Finset.mem_union, not_or] at fresh
      have site : parent.forkSite numChild = some (.handleChildExit pid, i) := by
        simp only [Parent.forkSite, place]
        exact if_pos ⟨inside, found⟩
      have allowed : parent.mayFork (some new) = true := decide_eq_true ⟨positive, fresh.1⟩
      refine ⟨.forked (some new), parent.forked (.handleChildExit pid) i (some new), rfl, ?_, ?_,
        trivial⟩
      · simp only [step, if_pos allowed, site, Option.map_some]
      · rintro caller index _ other different rfl
        by_cases small : other < clampChild numChild
        · exact fresh.2 (Finset.mem_image_of_mem _ (Finset.mem_range.mpr small))
        · rw [blank other (Nat.le_of_not_lt small)] at positive
          exact Int.lt_irrefl 0 positive
    · refine ⟨.advance, { parent with control := .handle pid (i + 1) }, rfl, ?_, bounded_advance⟩
      simp only [step, Parent.advance, place, if_pos inside, if_neg found]
  · refine ⟨.advance, { parent with control := .wait }, rfl, ?_, bounded_advance⟩
    simp only [step, Parent.advance, place, if_neg inside]

theorem Stage.progress
    (stage : Stage before pid slot forks parent) (ended : Ended numChild before pid slot)
    (busy : parent.control ≠ .wait) :
    ∃ event next, event.isSignal = false ∧ Supervisor.step numChild parent event = some next ∧
      Bounded numChild parent event := by
  cases stage with
  | searching i place _ table _ => exact turn_progress place (table ▸ ended.blank)
  | storing new place _ _ _ _ =>
      refine ⟨.advance, parent.storePid (.handleChildExit pid) slot new, rfl, ?_, bounded_advance⟩
      simp only [Supervisor.step, Parent.advance, place]
  | restarted new place _ _ table _ =>
      rcases place with waits | ⟨i, place, _⟩
      · exact absurd waits busy
      · refine turn_progress place ?_
        intro other outside
        have different : other ≠ slot := Nat.ne_of_gt (Nat.lt_of_lt_of_le ended.inside outside)
        rw [table, Function.update_of_ne different]
        exact ended.blank other outside

theorem Tracked.ended
    {zeros : Nat} (tracked : Tracked numChild zeros parent) (place : parent.control = .wait)
    (member : pid ∈ parent.running) (unclamped : Unclamped numChild) :
    ∃ slot, Ended numChild parent pid slot := by
  obtain ⟨slot, inside, holds, _⟩ := tracked.placed pid member
  have blank := tracked.blank
  have distinct := tracked.distinct
  rw [Tracked.slots_of_wait numChild place] at inside blank distinct
  refine ⟨slot, unclamped, inside, holds, ?_, blank⟩
  intro other otherInside otherHolds
  exact distinct other slot otherInside inside (otherHolds.trans holds.symm)

theorem Stage.of_report
    {report : Report} (terminates : report.terminates = true) (bad : 0 < report.status)
    (slot : Nat) : Stage parent pid slot 0 (parent.reported pid report) := by
  refine .searching 0 ?_ (Nat.zero_le slot) ?_ ?_ <;>
    simp [Parent.reported, terminates, bad]

theorem Stage.of_handling
    {start : Parent} {history : List Event} (begins : Stage before pid slot 0 start)
    (ended : Ended numChild before pid slot) (handling : Handling numChild start history after) :
    Stage before pid slot (history.countP Event.isFork) after ∧
      after.work numChild + history.countP (fun event => !event.isSignal) ≤
        start.work numChild := by
  refine Trace.invariant
    (fun history after => Stage before pid slot (history.countP Event.isFork) after ∧
      after.work numChild + history.countP (fun event => !event.isSignal) ≤
        start.work numChild) ?_ ?_ handling
  · rintro state rfl
    exact ⟨begins, Nat.le_refl _⟩
  · rintro history state event next ⟨stage, bound⟩ ⟨stepped, bounded, busy⟩
    have inverted := stepped_of_step stepped
    have less := stage.work_step ended inverted busy
    refine ⟨?_, ?_⟩
    · rw [List.countP_cons]
      exact stage.step ended inverted bounded.1 busy
    · rw [List.countP_cons]
      cases signaled : event.isSignal with
      | true =>
          simp only [signaled, if_true, Bool.not_true, Bool.false_eq_true, if_false] at less ⊢
          omega
      | false =>
          simp only [signaled, if_true, Bool.not_false, Bool.false_eq_true, if_false] at less ⊢
          omega

theorem Tracked.restartsOnce
    {zeros : Nat} {report : Report} (tracked : Tracked numChild zeros parent)
    (place : parent.control = .wait) (member : pid ∈ parent.running)
    (regular : Regular numChild parent (.reported pid report)) (bad : 0 < report.status) :
    RestartsOnce numChild parent pid report := by
  obtain ⟨slot, ended⟩ := tracked.ended place member (regular.2 bad)
  have begins : Stage parent pid slot 0 (parent.reported pid report) :=
    Stage.of_report regular.1 bad slot
  have small := clampChild_le numChild
  refine ⟨?_, ?_, ?_⟩
  · intro history after handling busy
    exact (Stage.of_handling begins ended handling).1.progress ended busy
  · intro history after handling
    have bound := (Stage.of_handling begins ended handling).2
    have work : (parent.reported pid report).work numChild = 2 * clampChild numChild + 1 := by
      simp [Parent.reported, Parent.work, bad]
    omega
  · intro history after handling waits
    have stage := (Stage.of_handling begins ended handling).1
    generalize history.countP Event.isFork = forks at stage
    cases stage with
    | searching i busy _ _ _ => cases waits.symm.trans busy
    | storing new busy _ _ _ _ => cases waits.symm.trans busy
    | restarted new _ positive fresh table running =>
        exact ⟨rfl, slot, new, Nat.lt_of_lt_of_le ended.inside small, ended.holds, table, positive,
          fresh, running⟩

end Stages

theorem regularRun_of_boundedRun
    {numChild : Int} {history : List Event} {parent : Parent}
    (run : BoundedRun numChild history parent) : RegularRun numChild history parent := by
  refine Trace.invariant (fun history parent => RegularRun numChild history parent) ?_ ?_ run
  · intro state begins
    exact .start begins
  · intro history state event after earlier stepped
    exact .next earlier ⟨stepped.1, stepped.2.1⟩

theorem Tracked.touched_lt
    {numChild : Int} {zeros : Nat} {parent : Parent} {event : Event}
    (tracked : Tracked numChild zeros parent.settle) (bounded : Bounded numChild parent event)
    {index : Nat} (touches : index ∈ touched numChild parent event) : index < maxChild := by
  have small := clampChild_le numChild
  have turns : ∀ control, parent.control = control →
      index ∈ touched numChild { parent with control } .advance → index < maxChild := by
    rintro control place member
    cases control with
    | store caller other pid =>
        obtain rfl := List.mem_singleton.mp member
        simp only [Parent.settle, place] at tracked
        cases caller with
        | createMultipleChild => exact Nat.lt_of_lt_of_le tracked.slots_le small
        | handleChildExit ended =>
            exact Nat.lt_of_lt_of_le (tracked.handling ended (index + 1) rfl).2 small
    | handle pid i =>
        simp only [Parent.settle, place] at tracked
        obtain ⟨unclamped, _⟩ := tracked.handling pid i place
        obtain ⟨inside, same⟩ := List.mem_ite_nil_right.mp member
        obtain rfl := List.mem_singleton.mp same
        exact Nat.lt_of_lt_of_le (lt_clampChild unclamped inside) small
    | create i => cases member
    | wait => cases member
    | stopped => cases member
  cases event with
  | advance => exact turns parent.control rfl touches
  | forked result => exact turns parent.control rfl touches
  | signal =>
      have inside := List.mem_range.mp touches
      have within := bounded.2
      simp only at within
      omega
  | interrupted => cases touches
  | waitError => cases touches
  | reported pid report => cases touches

/-- In bounded runs every access stays inside the table, the running children
are those of the clamped count that have not exited with status zero, and a
child that ends badly is restarted once, in its slot. -/
theorem bounded_run_restarts
    {numChild : Int} {history : List Event} {parent : Parent}
    (run : BoundedRun numChild history parent) :
    (∀ event after, step numChild parent event = some after → Bounded numChild parent event →
      ∀ index, index ∈ touched numChild parent event → index < maxChild) ∧
    (parent.control = .wait →
      parent.running.card + zeroExits history = clampChild numChild) ∧
    (∀ pid report after, step numChild parent (.reported pid report) = some after →
      Bounded numChild parent (.reported pid report) → 0 < report.status →
      RestartsOnce numChild parent pid report) := by
  have tracked := tracked_of_regularRun (regularRun_of_boundedRun run)
  refine ⟨?_, ?_, ?_⟩
  · intro event after _ bounded index touches
    exact tracked.touched_lt bounded touches
  · intro head
    simp only [Parent.settle, head] at tracked
    exact tracked.size_of_wait head
  · intro pid report after stepped bounded bad
    obtain ⟨⟨waiting, member⟩, _⟩ := Option.ite_none_right_eq_some.mp stepped
    have place := (of_decide_eq_true waiting).1
    simp only [Parent.settle, place] at tracked
    exact tracked.restartsOnce place member bounded.1 bad

theorem bounded_run_restarts_one_child :
    ∃ parent, BoundedRun 1 [.advance, .advance, .forked (some 100)] parent ∧
      RestartsOnce 1 parent 100 (.exited 1) := by
  have started : BoundedRun 1 [.forked (some 100)] _ :=
    .next (.start rfl) ⟨rfl, fun _ _ _ _ _ => (by decide : (0 : Int) ≠ 100), trivial⟩
  have stored : BoundedRun 1 [.advance, .forked (some 100)] _ :=
    .next started ⟨rfl, trivial, trivial⟩
  have waits : BoundedRun 1 [.advance, .advance, .forked (some 100)] _ :=
    .next stored ⟨rfl, trivial, trivial⟩
  have unclamped : Unclamped 1 := ⟨by decide, by decide⟩
  refine ⟨_, waits, (bounded_run_restarts waits).2.2 100 (.exited 1) _ rfl ?_ (by decide)⟩
  exact ⟨⟨rfl, fun _ => unclamped⟩, trivial⟩

/-- With `ChildCount` 0 the only child ends with status 1 and stays away; with
`ChildCount` 17 a signal reads past the table. -/
theorem child_not_restarted_and_table_overrun :
    (∃ parent, Run 0 [.advance, .reported 100 (.exited 1), .advance, .advance, .forked (some 100)]
        parent ∧
      parent.control = .wait ∧
      parent.running.card + zeroExits [.advance, .reported 100 (.exited 1), .advance, .advance,
        .forked (some 100)] ≠ clampChild 0) ∧
    ∃ parent, Run 17 [] parent ∧ ∃ after, step 17 parent .signal = some after ∧
      ¬ ∀ index, index ∈ touched 17 parent .signal → index < maxChild := by
  have started : Run 0 [.forked (some 100)] _ := .next (.start rfl) rfl
  have stored : Run 0 [.advance, .forked (some 100)] _ := .next started rfl
  have waits : Run 0 [.advance, .advance, .forked (some 100)] _ := .next stored rfl
  have reported : Run 0 [.reported 100 (.exited 1), .advance, .advance, .forked (some 100)] _ :=
    .next waits rfl
  have handled : Run 0 [.advance, .reported 100 (.exited 1), .advance, .advance,
      .forked (some 100)] _ := .next reported rfl
  refine ⟨⟨_, handled, rfl, by decide⟩, initialParent, .start rfl, initialParent, rfl, ?_⟩
  intro small
  exact absurd (small 16 (List.mem_range.mpr (by decide))) (by decide)

end Supervisor

end Tpt
