import Mathlib.Data.Finset.Card
import Mathlib.Data.Finset.Image
import Mathlib.Tactic
import Tpt.Lib.Trace

/-!
The parent of `waitforchild.c`: `main`, `waitForChild`, `restartChild` and
`parentSignalHandler`.

Forks succeed and the parent gets no `SIGINT`.  Children end, stop and
`SIGCHLD` is delivered at any time.  The handler sets `gExitFlag` for `SIGCHLD`
too, so a child whose `SIGCHLD` comes before its report is not restarted.
-/

namespace Tpt

namespace WaitForChild

def numChild : Nat := 2

structure Slot where
  pid : Int
  on : Bool
  deriving DecidableEq

/-- Where the parent stands: in the loop of `main`, in the loop of
`waitForChild`, or after it. -/
inductive Control where
  | create (i : Nat)
  | wait
  | returned
  deriving DecidableEq

/-- The parent, the children that run, and those whose end or stop `waitpid` has
not reported yet. -/
structure Parent where
  control : Control
  childTable : Nat → Slot
  exitFlag : Bool
  running : Finset Int
  ended : Finset Int
  stopped : Finset Int

def initialParent : Parent where
  control := .create 0
  childTable _ := ⟨0, false⟩
  exitFlag := false
  running := ∅
  ended := ∅
  stopped := ∅

/-- What the kernel decides; a report comes with the pids that `fork` gives for
the slots. -/
inductive Event where
  | forked (pid : Int)
  | enters
  | ends (pid : Int)
  | stops (pid : Int)
  | sigchld
  | interrupted
  | noneLeft
  | reported (pid : Int) (fork : Nat → Int)

namespace Parent

/-- A new process has a positive pid that no other child has. -/
def mayFork (parent : Parent) (pid : Int) : Prop :=
  0 < pid ∧ pid ∉ parent.running ∧ pid ∉ parent.ended

instance (parent : Parent) (pid : Int) : Decidable (parent.mayFork pid) :=
  inferInstanceAs (Decidable (_ ∧ _))

def storeChild (parent : Parent) (index : Nat) (pid : Int) : Parent :=
  { parent with
    childTable := Function.update parent.childTable index ⟨pid, true⟩
    running := insert pid parent.running }

/-- `restartChild`, for the pid that its `fork` gives. -/
def restartChild (parent : Parent) (index : Nat) (pid : Int) : Parent :=
  if numChild ≤ index then parent else parent.storeChild index pid

/-- `parentSignalHandler` for `SIGCHLD`. -/
def parentSignalHandler (parent : Parent) : Parent := { parent with exitFlag := true }

def reap (parent : Parent) (pid : Int) : Option Parent :=
  if pid ∈ parent.ended then some { parent with ended := parent.ended.erase pid }
  else if pid ∈ parent.stopped then some { parent with stopped := parent.stopped.erase pid }
  else none

end Parent

/-- The loop over the table in `waitForChild`, at these indices. -/
def restartLoop (pid : Int) (fork : Nat → Int) : List Nat → Parent → Option Parent
  | [], parent => some parent
  | i :: indices, parent =>
      if parent.childTable i = ⟨pid, true⟩ then
        if parent.mayFork (fork i) then
          restartLoop pid fork indices (parent.restartChild i (fork i))
        else none
      else restartLoop pid fork indices parent

/-- A turn of the loop of `waitForChild` in which `waitpid` returned a pid. -/
def waitTurn (parent : Parent) (pid : Int) (fork : Nat → Int) : Option Parent := do
  let parent ← parent.reap pid
  if parent.exitFlag then some parent
  else restartLoop pid fork (List.range numChild) parent

def step (parent : Parent) : Event → Option Parent
  | .forked pid =>
      match parent.control with
      | .create i =>
          if i < numChild ∧ parent.mayFork pid then
            some { parent.storeChild i pid with control := .create (i + 1) }
          else none
      | _ => none
  | .enters =>
      match parent.control with
      | .create i =>
          if numChild ≤ i then
            some { parent with control := if parent.exitFlag then .returned else .wait }
          else none
      | _ => none
  | .ends pid =>
      if pid ∈ parent.running then
        some
          { parent with
            running := parent.running.erase pid
            ended := insert pid parent.ended
            stopped := parent.stopped.erase pid }
      else none
  | .stops pid =>
      if pid ∈ parent.running then some { parent with stopped := insert pid parent.stopped }
      else none
  | .sigchld => some parent.parentSignalHandler
  | .interrupted => if parent.control = .wait then some parent else none
  | .noneLeft =>
      if parent.control = .wait ∧ parent.running = ∅ ∧ parent.ended = ∅ then
        some { parent with control := if parent.exitFlag then .wait else .returned }
      else none
  | .reported pid fork => if parent.control = .wait then waitTurn parent pid fork else none

def Run : List Event → Parent → Prop :=
  Trace (· = initialParent) fun parent event after => step parent event = some after

/-- A `SIGCHLD` was delivered after the last end or stop of the child. -/
def Announced (pid : Int) : List Event → Prop
  | [] => False
  | .sigchld :: _ => True
  | .ends other :: history => other ≠ pid ∧ Announced pid history
  | .stops other :: history => other ≠ pid ∧ Announced pid history
  | _ :: history => Announced pid history

/-- `waitpid` reports no child before a `SIGCHLD` for it. -/
def Ordered : List Event → Prop
  | [] => True
  | .reported pid _ :: history => Announced pid history ∧ Ordered history
  | _ :: history => Ordered history

/-- What a report of `waitpid` leads to: a child that ended is replaced in its
slot, and where no child is left `waitForChild` returns. -/
def Answers (parent : Parent) (event : Event) (after : Parent) : Prop :=
  match event with
  | .reported pid fork =>
      pid ∈ parent.ended → ∃ i < numChild, parent.childTable i = ⟨pid, true⟩ ∧
        after.childTable i = ⟨fork i, true⟩ ∧ fork i ∈ after.running
  | .noneLeft => after.control = .returned
  | _ => True

/-- The children in the table run, or are still to be reported to the loop; when
all are reported there are as many as there should be. -/
structure Supervises (parent : Parent) : Prop where
  kept : ∀ i < numChild, (parent.childTable i).on = true →
    (parent.childTable i).pid ∈ parent.running ∨
      (parent.control ≠ .returned ∧ (parent.childTable i).pid ∈ parent.ended)
  count : parent.control = .wait → parent.ended = ∅ → parent.running.card = numChild

def SupervisedRun : List Event → Parent → Prop :=
  Trace (· = initialParent) fun parent event after =>
    step parent event = some after ∧ Answers parent event after ∧ Supervises after

/-- `waitForChild` is not entered after a `SIGCHLD` while the end of a child is
unreported, no child ends after it returned, and a report is of a child that
ended just where there was no `SIGCHLD`. -/
def Careful (parent : Parent) : Event → Prop
  | .enters => parent.exitFlag = true → parent.ended = ∅
  | .ends _ => parent.control ≠ .returned
  | .reported pid _ => pid ∈ parent.ended ↔ parent.exitFlag = false
  | _ => True

def CarefulRun : List Event → Parent → Prop :=
  Trace (· = initialParent) fun parent event after =>
    step parent event = some after ∧ Careful parent event

section Loop

variable {pid : Int} {fork : Nat → Int} {indices : List Nat} {parent : Parent} {i : Nat}

theorem restartLoop_of_none
    (other : ∀ j ∈ indices, parent.childTable j ≠ ⟨pid, true⟩) :
    restartLoop pid fork indices parent = some parent := by
  induction indices with
  | nil => rfl
  | cons j indices inductionHypothesis =>
      obtain ⟨here, later⟩ := List.forall_mem_cons.mp other
      rw [restartLoop, if_neg here, inductionHypothesis later]

theorem restartLoop_of_slot
    (nodup : indices.Nodup) (member : i ∈ indices) (small : i < numChild)
    (slot : parent.childTable i = ⟨pid, true⟩)
    (single : ∀ j ∈ indices, parent.childTable j = ⟨pid, true⟩ → j = i) :
    restartLoop pid fork indices parent =
      if parent.mayFork (fork i) then some (parent.storeChild i (fork i)) else none := by
  induction indices with
  | nil => cases member
  | cons j indices inductionHypothesis =>
      obtain ⟨fresh, nodupRest⟩ := List.nodup_cons.mp nodup
      obtain ⟨singleHere, singleLater⟩ := List.forall_mem_cons.mp single
      rw [restartLoop]
      by_cases here : parent.childTable j = ⟨pid, true⟩
      · obtain rfl := singleHere here
        have rest : ∀ other ∈ indices,
            (parent.storeChild j (fork j)).childTable other ≠ ⟨pid, true⟩ := by
          intro other found same
          have different : other ≠ j := fun equal => fresh (equal ▸ found)
          have earlier := (Function.update_of_ne different _ _).symm.trans same
          exact different (singleLater other found earlier)
        rw [if_pos here, Parent.restartChild, if_neg (Nat.not_le.mpr small),
          restartLoop_of_none rest]
      · have elsewhere : i ∈ indices := by
          rcases List.mem_cons.mp member with rfl | later
          · exact absurd slot here
          · exact later
        rw [if_neg here]
        exact inductionHypothesis nodupRest elsewhere singleLater

end Loop

/-- The first slots are on, and have these children, each in one. -/
structure Filled (childTable : Nat → Slot) (children : Finset Int) (made : Nat) : Prop where
  on_iff : ∀ i, (childTable i).on = true ↔ i < made
  distinct : ∀ i < made, ∀ j < made, (childTable i).pid = (childTable j).pid → i = j
  children : ∀ pid, pid ∈ children ↔ ∃ i < made, (childTable i).pid = pid

namespace Filled

variable {childTable : Nat → Slot} {children : Finset Int} {made i : Nat} {pid old : Int}

theorem card (filled : Filled childTable children made) : children.card = made := by
  have image : children = (Finset.range made).image fun i => (childTable i).pid := by
    ext pid
    simp only [filled.children, Finset.mem_image, Finset.mem_range]
  rw [image, Finset.card_image_of_injOn, Finset.card_range]
  intro i below j belowJ same
  exact filled.distinct i (Finset.mem_range.mp below) j (Finset.mem_range.mp belowJ) same

theorem push (filled : Filled childTable children made) (fresh : pid ∉ children) :
    Filled (Function.update childTable made ⟨pid, true⟩) (insert pid children) (made + 1) := by
  have older : ∀ i < made, (childTable i).pid ≠ pid :=
    fun i below same => fresh ((filled.children pid).mpr ⟨i, below, same⟩)
  have kept : ∀ i, i ≠ made → Function.update childTable made ⟨pid, true⟩ i = childTable i :=
    fun i different => Function.update_of_ne different _ _
  have new : Function.update childTable made ⟨pid, true⟩ made = ⟨pid, true⟩ :=
    Function.update_self _ _ _
  refine ⟨fun i => ?_, fun i below j belowJ same => ?_, fun other => ?_⟩
  · by_cases here : i = made
    · rw [here, new]
      exact ⟨fun _ => Nat.lt_succ_self made, fun _ => rfl⟩
    · rw [kept i here, filled.on_iff]
      omega
  · by_cases here : i = made <;> by_cases there : j = made
    · rw [here, there]
    · rw [here, new, kept j there] at same
      exact absurd same.symm (older j (by omega))
    · rw [there, new, kept i here] at same
      exact absurd same (older i (by omega))
    · rw [kept i here, kept j there] at same
      exact filled.distinct i (by omega) j (by omega) same
  · rw [Finset.mem_insert, filled.children]
    constructor
    · rintro (rfl | ⟨i, below, same⟩)
      · exact ⟨made, Nat.lt_succ_self made, by rw [new]⟩
      · exact ⟨i, Nat.lt_succ_of_lt below, by rw [kept i (Nat.ne_of_lt below), same]⟩
    · rintro ⟨i, below, same⟩
      by_cases here : i = made
      · rw [here, new] at same
        exact .inl same.symm
      · rw [kept i here] at same
        exact .inr ⟨i, by omega, same⟩

theorem replace
    (filled : Filled childTable children made) (small : i < made)
    (slot : (childTable i).pid = old) (fresh : pid ∉ children.erase old) :
    Filled (Function.update childTable i ⟨pid, true⟩) (insert pid (children.erase old)) made := by
  have kept : ∀ j, j ≠ i → Function.update childTable i ⟨pid, true⟩ j = childTable j :=
    fun j different => Function.update_of_ne different _ _
  have new : Function.update childTable i ⟨pid, true⟩ i = ⟨pid, true⟩ :=
    Function.update_self _ _ _
  have others : ∀ j < made, j ≠ i → (childTable j).pid ∈ children.erase old := by
    intro j below different
    refine Finset.mem_erase.mpr ⟨fun same => ?_, (filled.children _).mpr ⟨j, below, rfl⟩⟩
    exact different (filled.distinct j below i small (same.trans slot.symm))
  refine ⟨fun j => ?_, fun j below k belowK same => ?_, fun other => ?_⟩
  · by_cases here : j = i
    · rw [here, new]
      exact ⟨fun _ => small, fun _ => rfl⟩
    · rw [kept j here, filled.on_iff]
  · by_cases here : j = i <;> by_cases there : k = i
    · rw [here, there]
    · rw [here, new, kept k there] at same
      have found := others k belowK there
      rw [← same] at found
      exact absurd found fresh
    · rw [there, new, kept j here] at same
      have found := others j below here
      rw [same] at found
      exact absurd found fresh
    · rw [kept j here, kept k there] at same
      exact filled.distinct j below k belowK same
  · rw [Finset.mem_insert, Finset.mem_erase, filled.children]
    constructor
    · rintro (rfl | ⟨different, j, below, same⟩)
      · exact ⟨i, small, by rw [new]⟩
      · refine ⟨j, below, ?_⟩
        rw [kept j fun here => different (same.symm.trans (here ▸ slot)), same]
    · rintro ⟨j, below, same⟩
      by_cases here : j = i
      · rw [here, new] at same
        exact .inl same.symm
      · rw [kept j here] at same
        have found := Finset.mem_erase.mp (others j below here)
        rw [same] at found
        exact .inr ⟨found.1, j, below, same⟩

end Filled

def Parent.made (parent : Parent) : Nat :=
  match parent.control with
  | .create i => i
  | _ => numChild

structure Inv (parent : Parent) : Prop where
  made : parent.made ≤ numChild
  filled : Filled parent.childTable (parent.running ∪ parent.ended) parent.made
  apart : Disjoint parent.running parent.ended
  reaped : parent.control = .returned → parent.ended = ∅

theorem Inv.start : Inv initialParent := by
  refine ⟨Nat.zero_le _, ⟨fun i => ?_, ?_, fun pid => ?_⟩, Finset.disjoint_empty_left _, nofun⟩
  · exact ⟨nofun, fun below => absurd below (Nat.not_lt_zero i)⟩
  · exact fun i below => absurd below (Nat.not_lt_zero i)
  · constructor
    · exact fun member => absurd member (Finset.notMem_empty pid)
    · rintro ⟨i, below, _⟩
      exact absurd below (Nat.not_lt_zero i)

section Steps

variable {parent after : Parent} {pid : Int} {i : Nat} {event : Event}

theorem Inv.forked
    (inv : Inv parent) (place : parent.control = .create i) (small : i < numChild)
    (fresh : parent.mayFork pid) :
    Inv { parent.storeChild i pid with control := .create (i + 1) } := by
  have made : parent.made = i := by rw [Parent.made, place]
  obtain ⟨_, notRunning, notEnded⟩ := fresh
  have filled := inv.filled
  rw [made] at filled
  refine ⟨small, ?_, Finset.disjoint_insert_left.mpr ⟨notEnded, inv.apart⟩, nofun⟩
  have pushed := filled.push (Finset.notMem_union.mpr ⟨notRunning, notEnded⟩)
  rw [← Finset.insert_union] at pushed
  exact pushed

theorem Inv.ends
    (inv : Inv parent) (running : pid ∈ parent.running)
    (unreturned : parent.control ≠ .returned) :
    Inv
      { parent with
        running := parent.running.erase pid
        ended := insert pid parent.ended
        stopped := parent.stopped.erase pid } := by
  have same : parent.running.erase pid ∪ insert pid parent.ended =
      parent.running ∪ parent.ended := by
    rw [Finset.union_insert, ← Finset.insert_union, Finset.insert_erase running]
  refine ⟨inv.made, ?_, ?_, fun back => absurd back unreturned⟩
  · change Filled parent.childTable (parent.running.erase pid ∪ insert pid parent.ended) parent.made
    rw [same]
    exact inv.filled
  · refine Finset.disjoint_insert_right.mpr ⟨Finset.notMem_erase pid _, ?_⟩
    exact inv.apart.mono_left (Finset.erase_subset pid _)

theorem Inv.slot
    (inv : Inv parent) (made : parent.made = numChild)
    (child : pid ∈ parent.running ∪ parent.ended) :
    ∃ i < numChild, parent.childTable i = ⟨pid, true⟩ := by
  obtain ⟨i, below, same⟩ := (inv.filled.children pid).mp child
  have on := (inv.filled.on_iff i).mpr below
  exact ⟨i, made ▸ below, by rw [← same, ← on]⟩

theorem Inv.waitTurn_eq
    (inv : Inv parent) (place : parent.control = .wait) (current : parent.exitFlag = false)
    (ended : pid ∈ parent.ended) :
    ∃ i < numChild, parent.childTable i = ⟨pid, true⟩ ∧ ∀ fork,
      waitTurn parent pid fork =
        if { parent with ended := parent.ended.erase pid }.mayFork (fork i) then
          some ({ parent with ended := parent.ended.erase pid }.storeChild i (fork i))
        else none := by
  have made : parent.made = numChild := by rw [Parent.made, place]
  obtain ⟨i, below, slot⟩ := inv.slot made (Finset.mem_union_right _ ended)
  refine ⟨i, below, slot, fun fork => ?_⟩
  have reaped : parent.reap pid = some { parent with ended := parent.ended.erase pid } :=
    if_pos ended
  rw [waitTurn, reaped, Option.bind_eq_bind, Option.bind_some, if_neg (by rw [current]; nofun)]
  refine restartLoop_of_slot List.nodup_range (List.mem_range.mpr below) below slot ?_
  intro j member found
  refine inv.filled.distinct j ?_ i (made ▸ below) ?_
  · rw [made]
    exact List.mem_range.mp member
  · exact congrArg Slot.pid (found.trans slot.symm)

theorem Inv.restarted
    (inv : Inv parent) (place : parent.control = .wait) (ended : pid ∈ parent.ended)
    (small : i < numChild) (slot : parent.childTable i = ⟨pid, true⟩) {new : Int}
    (fresh : { parent with ended := parent.ended.erase pid }.mayFork new) :
    Inv ({ parent with ended := parent.ended.erase pid }.storeChild i new) := by
  have made : parent.made = numChild := by rw [Parent.made, place]
  obtain ⟨_, notRunning, notEnded⟩ := fresh
  have notBoth : pid ∉ parent.running := fun running =>
    Finset.disjoint_left.mp inv.apart running ended
  have children : (parent.running ∪ parent.ended).erase pid =
      parent.running ∪ parent.ended.erase pid := by
    rw [Finset.erase_union_distrib, Finset.erase_eq_of_notMem notBoth]
  have replaced := @Filled.replace _ _ _ i new pid inv.filled (made ▸ small)
    (congrArg Slot.pid slot)
    (by rw [children]; exact Finset.notMem_union.mpr ⟨notRunning, notEnded⟩)
  rw [children, ← Finset.insert_union] at replaced
  refine ⟨inv.made, replaced, ?_, fun back => Control.noConfusion (place.symm.trans back)⟩
  exact Finset.disjoint_insert_left.mpr
    ⟨notEnded, inv.apart.mono_right (Finset.erase_subset pid _)⟩

theorem Inv.stopsReported
    (inv : Inv parent) (unended : pid ∉ parent.ended) (reaped : parent.reap pid = some after) :
    Inv after := by
  rw [Parent.reap, if_neg unended] at reaped
  obtain ⟨_, same⟩ := Option.ite_none_right_eq_some.mp reaped
  obtain rfl := Option.some.inj same
  exact ⟨inv.made, inv.filled, inv.apart, inv.reaped⟩

theorem reap_frame (reaped : parent.reap pid = some after) :
    after.control = parent.control ∧ after.exitFlag = parent.exitFlag ∧
      after.childTable = parent.childTable ∧ after.running = parent.running := by
  rw [Parent.reap] at reaped
  split_ifs at reaped
  all_goals
    obtain rfl := Option.some.inj reaped
    exact ⟨rfl, rfl, rfl, rfl⟩

/-- After a `SIGCHLD` a report is only taken from the kernel. -/
theorem waitTurn_signalled
    {fork : Nat → Int} (signalled : parent.exitFlag = true)
    (turned : waitTurn parent pid fork = some after) : parent.reap pid = some after := by
  obtain ⟨reaped, taken, turn⟩ := Option.bind_eq_some_iff.mp turned
  rw [if_pos ((reap_frame taken).2.1.trans signalled)] at turn
  rwa [← Option.some.inj turn]

theorem Inv.entered
    (inv : Inv parent) (place : parent.control = .create i) (all : numChild ≤ i)
    (unended : parent.exitFlag = true → parent.ended = ∅) :
    Inv { parent with control := if parent.exitFlag then .returned else .wait } := by
  have made : parent.made = i := by rw [Parent.made, place]
  have same : i = numChild := Nat.le_antisymm (made ▸ inv.made) all
  have filled := inv.filled
  rw [made, same] at filled
  cases signalled : parent.exitFlag with
  | true => exact ⟨le_refl _, filled, inv.apart, fun _ => unended signalled⟩
  | false => exact ⟨le_refl _, filled, inv.apart, nofun⟩

theorem Inv.someLeft
    (inv : Inv parent) (place : parent.control = .wait) :
    ¬ (parent.running = ∅ ∧ parent.ended = ∅) := by
  rintro ⟨alone, reaped⟩
  have card := inv.filled.card
  rw [alone, reaped, Parent.made, place] at card
  cases card

theorem Inv.step
    (inv : Inv parent) (stepped : step parent event = some after)
    (careful : Careful parent event) : Inv after ∧ Answers parent event after := by
  cases event with
  | forked pid =>
      cases place : parent.control with
      | create i =>
          simp only [WaitForChild.step, place] at stepped
          obtain ⟨⟨small, fresh⟩, same⟩ := Option.ite_none_right_eq_some.mp stepped
          obtain rfl := Option.some.inj same
          exact ⟨inv.forked place small fresh, trivial⟩
      | wait => simp [WaitForChild.step, place] at stepped
      | returned => simp [WaitForChild.step, place] at stepped
  | enters =>
      cases place : parent.control with
      | create i =>
          simp only [WaitForChild.step, place] at stepped
          obtain ⟨all, same⟩ := Option.ite_none_right_eq_some.mp stepped
          obtain rfl := Option.some.inj same
          exact ⟨inv.entered place all careful, trivial⟩
      | wait => simp [WaitForChild.step, place] at stepped
      | returned => simp [WaitForChild.step, place] at stepped
  | ends pid =>
      obtain ⟨running, same⟩ := Option.ite_none_right_eq_some.mp stepped
      obtain rfl := Option.some.inj same
      exact ⟨inv.ends running careful, trivial⟩
  | stops pid =>
      obtain ⟨_, same⟩ := Option.ite_none_right_eq_some.mp stepped
      obtain rfl := Option.some.inj same
      exact ⟨⟨inv.made, inv.filled, inv.apart, inv.reaped⟩, trivial⟩
  | sigchld =>
      obtain rfl := Option.some.inj stepped
      exact ⟨⟨inv.made, inv.filled, inv.apart, inv.reaped⟩, trivial⟩
  | interrupted =>
      obtain ⟨_, same⟩ := Option.ite_none_right_eq_some.mp stepped
      obtain rfl := Option.some.inj same
      exact ⟨inv, trivial⟩
  | noneLeft =>
      obtain ⟨⟨place, gone⟩, _⟩ := Option.ite_none_right_eq_some.mp stepped
      exact absurd gone (inv.someLeft place)
  | reported pid fork =>
      obtain ⟨place, turned⟩ := Option.ite_none_right_eq_some.mp stepped
      cases signalled : parent.exitFlag with
      | true =>
          have unended : pid ∉ parent.ended := fun ended =>
            Bool.noConfusion (signalled.symm.trans (careful.mp ended))
          exact ⟨inv.stopsReported unended (waitTurn_signalled signalled turned),
            fun ended => absurd ended unended⟩
      | false =>
          have ended := careful.mpr signalled
          obtain ⟨i, small, slot, turn⟩ := inv.waitTurn_eq place signalled ended
          rw [turn fork] at turned
          obtain ⟨fresh, same⟩ := Option.ite_none_right_eq_some.mp turned
          obtain rfl := Option.some.inj same
          exact ⟨inv.restarted place ended small slot fresh, fun _ => ⟨i, small, slot,
            Function.update_self .., Finset.mem_insert_self _ _⟩⟩

theorem Inv.supervises (inv : Inv parent) : Supervises parent where
  kept i small on := by
    have below := (inv.filled.on_iff i).mp on
    have child := (inv.filled.children _).mpr ⟨i, below, rfl⟩
    rcases Finset.mem_union.mp child with running | ended
    · exact .inl running
    · refine .inr ⟨fun back => ?_, ended⟩
      rw [inv.reaped back] at ended
      exact Finset.notMem_empty _ ended
  count place reaped := by
    have card := inv.filled.card
    rw [reaped, Finset.union_empty, Parent.made, place] at card
    exact card

theorem Supervises.unreturned
    (supervises : Supervises parent) (small : i < numChild)
    (slot : parent.childTable i = ⟨pid, true⟩) (gone : pid ∉ parent.running) :
    parent.control ≠ .returned := by
  have kept := supervises.kept i small (by rw [slot])
  rw [slot] at kept
  exact (kept.resolve_left gone).1

/-- Where the parent has had a `SIGCHLD` before each report, a step in which it
supervises its children is careful. -/
theorem Inv.careful
    (inv : Inv parent) (stepped : WaitForChild.step parent event = some after)
    (answers : Answers parent event after) (supervises : Supervises after)
    (signalled : ∀ pid fork, event = .reported pid fork → parent.exitFlag = true) :
    Careful parent event := by
  cases event with
  | enters =>
      intro flagged
      cases place : parent.control with
      | create i =>
          simp only [WaitForChild.step, place, flagged, if_true] at stepped
          obtain ⟨all, same⟩ := Option.ite_none_right_eq_some.mp stepped
          obtain rfl := Option.some.inj same
          have made : parent.made = numChild := by
            refine Nat.le_antisymm inv.made ?_
            rw [Parent.made, place]
            exact all
          refine Finset.eq_empty_of_forall_notMem fun pid ended => ?_
          obtain ⟨i, small, slot⟩ := inv.slot made (Finset.mem_union_right _ ended)
          have gone : pid ∉ parent.running := fun running =>
            Finset.disjoint_left.mp inv.apart running ended
          exact supervises.unreturned small slot gone rfl
      | wait => simp [WaitForChild.step, place] at stepped
      | returned => simp [WaitForChild.step, place] at stepped
  | ends pid =>
      intro back
      obtain ⟨running, same⟩ := Option.ite_none_right_eq_some.mp stepped
      obtain rfl := Option.some.inj same
      have made : parent.made = numChild := by rw [Parent.made, back]
      obtain ⟨i, small, slot⟩ := inv.slot made (Finset.mem_union_left _ running)
      exact supervises.unreturned small slot (Finset.notMem_erase pid _) back
  | reported pid fork =>
      have flagged := signalled pid fork rfl
      refine iff_of_false (fun ended => ?_) (by rw [flagged]; nofun)
      obtain ⟨_, turned⟩ := Option.ite_none_right_eq_some.mp stepped
      obtain ⟨i, _, slot, new, forked⟩ := answers ended
      obtain ⟨_, _, childTable, running⟩ := reap_frame (waitTurn_signalled flagged turned)
      -- the table is unchanged, so the pid in the slot is still that of the child
      rw [childTable, slot, Slot.mk.injEq] at new
      rw [running, ← new.1] at forked
      exact Finset.disjoint_left.mp inv.apart forked ended
  | forked | stops | sigchld | interrupted | noneLeft => trivial

theorem exitFlag_stays
    (flagged : parent.exitFlag = true) (stepped : WaitForChild.step parent event = some after) :
    after.exitFlag = true := by
  cases event with
  | forked | enters =>
      cases place : parent.control <;> simp only [WaitForChild.step, place] at stepped
      all_goals first
        | cases stepped
        | obtain ⟨_, same⟩ := Option.ite_none_right_eq_some.mp stepped
          obtain rfl := Option.some.inj same
          exact flagged
  | sigchld =>
      obtain rfl := Option.some.inj stepped
      rfl
  | reported pid fork =>
      obtain ⟨_, turned⟩ := Option.ite_none_right_eq_some.mp stepped
      exact (reap_frame (waitTurn_signalled flagged turned)).2.1.trans flagged
  | ends | stops | interrupted | noneLeft =>
      obtain ⟨_, same⟩ := Option.ite_none_right_eq_some.mp stepped
      obtain rfl := Option.some.inj same
      exact flagged

end Steps

section Runs

variable {history : List Event} {parent : Parent} {pid : Int}

theorem Announced.sigchld_mem (announced : Announced pid history) : Event.sigchld ∈ history := by
  induction history with
  | nil => exact announced.elim
  | cons event history inductionHypothesis =>
      cases event with
      | sigchld => exact List.mem_cons_self
      | ends | stops => exact List.mem_cons_of_mem _ (inductionHypothesis announced.2)
      | forked | enters | interrupted | noneLeft | reported =>
          exact List.mem_cons_of_mem _ (inductionHypothesis announced)

theorem Run.exitFlag (run : Run history parent) (signalled : Event.sigchld ∈ history) :
    parent.exitFlag = true := by
  induction run with
  | start => cases signalled
  | next run stepped inductionHypothesis =>
      rcases List.mem_cons.mp signalled with same | earlier
      · subst same
        obtain rfl := Option.some.inj stepped
        rfl
      · exact exitFlag_stays (inductionHypothesis earlier) stepped

theorem CarefulRun.inv (run : CarefulRun history parent) : Inv parent := by
  refine Trace.invariant (fun _ parent => Inv parent) ?_ ?_ run
  · rintro parent rfl
    exact .start
  · intro history before event after inv stepped
    exact (inv.step stepped.1 stepped.2).1

theorem CarefulRun.supervised (run : CarefulRun history parent) :
    SupervisedRun history parent := by
  induction run with
  | start begins => exact .start begins
  | next run stepped inductionHypothesis =>
      obtain ⟨inv, answers⟩ := (CarefulRun.inv run).step stepped.1 stepped.2
      exact .next inductionHypothesis ⟨stepped.1, answers, inv.supervises⟩

theorem Ordered.tail {event : Event} (ordered : Ordered (event :: history)) :
    Ordered history := by
  cases event with
  | reported pid fork => exact ordered.2
  | forked | enters | ends | stops | sigchld | interrupted | noneLeft => exact ordered

theorem SupervisedRun.careful (run : SupervisedRun history parent) (ordered : Ordered history) :
    CarefulRun history parent := by
  induction run with
  | start begins => exact .start begins
  | next run stepped inductionHypothesis =>
      have carefulRun := inductionHypothesis ordered.tail
      obtain ⟨stepped, answers, supervises⟩ := stepped
      refine .next carefulRun ⟨stepped, carefulRun.inv.careful stepped answers supervises ?_⟩
      rintro pid fork rfl
      exact Run.exitFlag (carefulRun.imp And.left) ordered.1.sigchld_mem

/-- In the order that is asked for the parent keeps its children going as long as
no report is of a child that ended, and `waitForChild` does not return at once
from ended children or before one ends. -/
theorem supervised_run_iff (ordered : Ordered history) :
    SupervisedRun history parent ↔ CarefulRun history parent :=
  ⟨fun run => run.careful ordered, CarefulRun.supervised⟩

theorem signalled_step
    {after : Parent} {event : Event} (place : parent.control = .wait)
    (flagged : parent.exitFlag = true) (stepped : step parent event = some after) :
    after.control = .wait ∧ after.childTable = parent.childTable := by
  cases event with
  | forked | enters => simp [step, place] at stepped
  | sigchld =>
      obtain rfl := Option.some.inj stepped
      exact ⟨place, rfl⟩
  | noneLeft =>
      obtain ⟨_, same⟩ := Option.ite_none_right_eq_some.mp stepped
      obtain rfl := Option.some.inj same
      exact ⟨if_pos flagged, rfl⟩
  | reported pid fork =>
      obtain ⟨_, turned⟩ := Option.ite_none_right_eq_some.mp stepped
      obtain ⟨control, _, childTable, _⟩ := reap_frame (waitTurn_signalled flagged turned)
      exact ⟨control.trans place, childTable⟩
  | ends | stops | interrupted =>
      obtain ⟨_, same⟩ := Option.ite_none_right_eq_some.mp stepped
      obtain rfl := Option.some.inj same
      exact ⟨place, rfl⟩

theorem signalled_run
    {after : Parent} (place : parent.control = .wait) (flagged : parent.exitFlag = true)
    (run : Trace (· = parent) (fun before event after => step before event = some after)
      history after) :
    after.exitFlag = true ∧ after.control = .wait ∧ after.childTable = parent.childTable := by
  refine Trace.invariant (fun _ after => after.exitFlag = true ∧ after.control = .wait ∧
    after.childTable = parent.childTable) ?_ ?_ run
  · rintro start rfl
    exact ⟨flagged, place, rfl⟩
  · rintro history before event next ⟨flagged, place, same⟩ stepped
    obtain ⟨place, kept⟩ := signalled_step place flagged stepped
    exact ⟨exitFlag_stays flagged stepped, place, kept.trans same⟩

end Runs

/-- The parent after these events, the newest first. -/
def played (history : List Event) : Parent :=
  history.foldr (fun event parent => (step parent event).getD parent) initialParent

theorem step_played {history : List Event} {event : Event}
    (possible : (step (played history) event).isSome = true) :
    step (played history) event = some (played (event :: history)) := by
  obtain ⟨after, stepped⟩ := Option.isSome_iff_exists.mp possible
  rw [stepped]
  exact congrArg some (congrArg (·.getD (played history)) stepped).symm

theorem careful_cons {history : List Event} {event : Event}
    (possible : (step (played history) event).isSome = true)
    (careful : Careful (played history) event) (run : CarefulRun history (played history)) :
    CarefulRun (event :: history) (played (event :: history)) :=
  .next run ⟨step_played possible, careful⟩

def bothMade : List Event := [.enters, .forked 102, .forked 101]

theorem careful_bothMade : CarefulRun bothMade (played bothMade) := by
  have start : CarefulRun [] (played []) := .start rfl
  have first : CarefulRun [.forked 101] (played _) := careful_cons (by decide) trivial start
  have second : CarefulRun [.forked 102, .forked 101] (played _) :=
    careful_cons (by decide) trivial first
  exact careful_cons (by decide) nofun second

/-- A child stops, which is reported after its `SIGCHLD`, and the other one ends. -/
def stopReported : List Event :=
  .ends 102 :: .reported 101 (fun _ => 103) :: .sigchld :: .stops 101 :: bothMade

theorem supervised_run_iff_stop_reported :
    Ordered stopReported ∧ SupervisedRun stopReported (played stopReported) := by
  have ordered : Ordered stopReported := ⟨trivial, trivial⟩
  have stopped : CarefulRun (.stops 101 :: bothMade) (played _) :=
    careful_cons (by decide) trivial careful_bothMade
  have signalled : CarefulRun (.sigchld :: .stops 101 :: bothMade) (played _) :=
    careful_cons (by decide) trivial stopped
  have unended : 101 ∈ (played (.sigchld :: .stops 101 :: bothMade)).ended ↔
      (played (.sigchld :: .stops 101 :: bothMade)).exitFlag = false := by decide
  have reported : CarefulRun (.reported 101 (fun _ => 103) :: .sigchld :: .stops 101 :: bothMade)
      (played _) := careful_cons (by decide) unended signalled
  have unreturned : (played (.reported 101 (fun _ => 103) :: .sigchld :: .stops 101 ::
      bothMade)).control ≠ .returned := by decide
  exact ⟨ordered, (supervised_run_iff ordered).mpr (careful_cons (by decide) unreturned reported)⟩

/-- A child ends, and this is reported after its `SIGCHLD`. -/
def endReported : List Event :=
  .reported 101 (fun _ => 103) :: .sigchld :: .ends 101 :: bothMade

theorem signalled_child_not_restarted :
    Run endReported (played endReported) ∧ Ordered endReported ∧
      (played endReported).childTable 0 = ⟨101, true⟩ ∧
      (played endReported).running = {102} ∧ (played endReported).ended = ∅ ∧
      ¬ SupervisedRun endReported (played endReported) := by
  have made : Run bothMade (played bothMade) := careful_bothMade.imp And.left
  have ended : Run (.ends 101 :: bothMade) (played _) := .next made (step_played (by decide))
  have signalled : Run (.sigchld :: .ends 101 :: bothMade) (played _) :=
    .next ended (step_played (by decide))
  have running : (played endReported).running = {102} := by decide
  have reaped : (played endReported).ended = ∅ := by decide
  refine ⟨.next signalled (step_played (by decide)), ⟨trivial, trivial⟩, by decide, running,
    reaped, fun run => ?_⟩
  cases run with
  | next _ stepped =>
      have count := stepped.2.2.count (by decide) reaped
      rw [running] at count
      exact absurd count (by decide)

end WaitForChild

end Tpt
