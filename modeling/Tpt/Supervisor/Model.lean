import Mathlib.Data.Finset.Card
import Mathlib.Data.Finset.Image
import Mathlib.Tactic
import Tpt.Lib.Trace

/-!
The parent process of the proxy: `create_multiple_child` and `start_child` of
`core.c`, `wait_for_child` and `handle_child_exit` of `main.c`, and
`kill_all_children` of `signal_handler.c`.

`proxy_old` has the same functions over its configured `ChildCount`, so the
count is a parameter.  A fork and the store of its result are two steps, and
each turn of a loop is one.  A child runs until `waitpid` reports its end.
-/

namespace Tpt

namespace Supervisor

def maxChild : Nat := 16

/-- The clamp at the top of `create_multiple_child`. -/
def clampChild (numChild : Int) : Nat :=
  if numChild ≤ 0 then 1 else if numChild > maxChild then maxChild else numChild.toNat

/-- The signals that end or stop a process. -/
abbrev Signum := { signum : Nat // 0 < signum ∧ signum < 127 }

/-- What `waitpid` with `WUNTRACED` reports of a child. -/
inductive Report where
  | exited (code : UInt8)
  | signaled (signum : Signum) (core : Bool)
  | stopped (signum : Signum)

def Report.status : Report → Nat
  | .exited code => code.toNat * 256
  | .signaled signum core => signum.val + if core then 128 else 0
  | .stopped signum => 127 + signum.val * 256

def Report.terminates : Report → Bool
  | .stopped _ => false
  | _ => true

inductive Caller where
  | createMultipleChild
  | handleChildExit (pid : Int)
  deriving DecidableEq

/-- Where the parent stands: at a turn of the loop of `create_multiple_child`
or of `handle_child_exit`, in `start_child` after the fork, at the head of the
loop of `wait_for_child`, or after it. -/
inductive Control where
  | create (i : Nat)
  | store (caller : Caller) (index : Nat) (pid : Int)
  | wait
  | handle (pid : Int) (i : Nat)
  | stopped
  deriving DecidableEq

structure Parent where
  control : Control
  childTable : Nat → Int
  activeChildCount : Int
  running : Finset Int

def initialParent : Parent :=
  { control := .create 0
    childTable := fun _ => 0
    activeChildCount := 0
    running := ∅ }

/-- What the kernel and the scheduler decide. -/
inductive Event where
  | advance
  | forked (result : Option Int)
  | interrupted
  | waitError
  | reported (pid : Int) (report : Report)
  | signal

namespace Parent

/-- `start_child` after its fork returned; a failed fork stores -1. -/
def forked (parent : Parent) (caller : Caller) (index : Nat) : Option Int → Parent
  | some pid =>
      { parent with
        control := .store caller index pid
        running := insert pid parent.running }
  | none => { parent with control := .store caller index (-1) }

/-- `start_child` from the store into the table on, and the rest of its
caller's turn. -/
def storePid (parent : Parent) (caller : Caller) (index : Nat) (pid : Int) : Parent :=
  match caller with
  | .createMultipleChild =>
      { parent with
        control := .create (index + 1)
        childTable := Function.update parent.childTable index pid
        activeChildCount :=
          if pid ≠ 0 then parent.activeChildCount + 1 else parent.activeChildCount }
  | .handleChildExit ended =>
      { parent with
        control := .handle ended (index + 1)
        childTable := Function.update parent.childTable index pid }

/-- A new process has a positive pid that no running child has. -/
def mayFork (parent : Parent) : Option Int → Bool
  | none => true
  | some pid => decide (0 < pid ∧ pid ∉ parent.running)

/-- The fork that comes next, if one does. -/
def forkSite (numChild : Int) (parent : Parent) : Option (Caller × Nat) :=
  match parent.control with
  | .create i => if i < clampChild numChild then some (.createMultipleChild, i) else none
  | .handle pid i =>
      if i < numChild ∧ parent.childTable i = pid then some (.handleChildExit pid, i) else none
  | _ => none

/-- A step of the parent that asks the kernel for nothing. -/
def advance (numChild : Int) (parent : Parent) : Option Parent :=
  match parent.control with
  | .create i => if i < clampChild numChild then none else some { parent with control := .wait }
  | .store caller index pid => some (parent.storePid caller index pid)
  | .wait =>
      if 0 < parent.activeChildCount then none else some { parent with control := .stopped }
  | .handle pid i =>
      if i < numChild then
        if parent.childTable i = pid then none
        else some { parent with control := .handle pid (i + 1) }
      else some { parent with control := .wait }
  | .stopped => none

def waiting (parent : Parent) : Bool :=
  decide (parent.control = .wait ∧ 0 < parent.activeChildCount)

/-- `wait_for_child` after `waitpid` returned a pid. -/
def reported (parent : Parent) (pid : Int) (report : Report) : Parent :=
  let running := if report.terminates then parent.running.erase pid else parent.running
  if 0 < report.status then { parent with control := .handle pid 0, running }
  else { parent with activeChildCount := parent.activeChildCount - 1, running }

end Parent

def step (numChild : Int) (parent : Parent) : Event → Option Parent
  | .advance => parent.advance numChild
  | .forked result =>
      if parent.mayFork result then
        (parent.forkSite numChild).map fun (caller, index) => parent.forked caller index result
      else none
  | .interrupted => if parent.waiting then some parent else none
  | .waitError => if parent.waiting then some { parent with control := .stopped } else none
  | .reported pid report =>
      if parent.waiting ∧ pid ∈ parent.running then some (parent.reported pid report) else none
  | .signal => some parent

def killed (numChild : Int) (parent : Parent) : List Int :=
  (List.range numChild.toNat).map parent.childTable

/-- The indices at which a step reads or writes `g_child_table`. -/
def touched (numChild : Int) (parent : Parent) : Event → List Nat
  | .signal => List.range numChild.toNat
  | .advance | .forked _ =>
      match parent.control with
      | .store _ index _ => [index]
      | .handle _ i => if i < numChild then [i] else []
      | _ => []
  | _ => []

def Run (numChild : Int) : List Event → Parent → Prop :=
  Trace (fun parent => parent = initialParent)
    (fun parent event after => step numChild parent event = some after)

inductive Stepped (numChild : Int) (parent : Parent) : Event → Parent → Prop where
  | created (i : Nat) : parent.control = .create i → clampChild numChild ≤ i →
      Stepped numChild parent .advance { parent with control := .wait }
  | stored (caller : Caller) (index : Nat) (pid : Int) :
      parent.control = .store caller index pid →
      Stepped numChild parent .advance (parent.storePid caller index pid)
  | drained : parent.control = .wait → parent.activeChildCount ≤ 0 →
      Stepped numChild parent .advance { parent with control := .stopped }
  | skipped (pid : Int) (i : Nat) : parent.control = .handle pid i → i < numChild →
      parent.childTable i ≠ pid →
      Stepped numChild parent .advance { parent with control := .handle pid (i + 1) }
  | handled (pid : Int) (i : Nat) : parent.control = .handle pid i → numChild ≤ i →
      Stepped numChild parent .advance { parent with control := .wait }
  | forked (result : Option Int) (caller : Caller) (index : Nat) :
      parent.mayFork result = true → parent.forkSite numChild = some (caller, index) →
      Stepped numChild parent (.forked result) (parent.forked caller index result)
  | interrupted : parent.waiting = true → Stepped numChild parent .interrupted parent
  | waitError : parent.waiting = true →
      Stepped numChild parent .waitError { parent with control := .stopped }
  | reported (pid : Int) (report : Report) : parent.waiting = true → pid ∈ parent.running →
      Stepped numChild parent (.reported pid report) (parent.reported pid report)
  | signal : Stepped numChild parent .signal parent

section Inversion

variable {numChild : Int} {parent after : Parent} {event : Event}

theorem stepped_of_advance
    (stepped : parent.advance numChild = some after) :
    Stepped numChild parent .advance after := by
  unfold Parent.advance at stepped
  cases place : parent.control with
  | create i =>
      simp only [place] at stepped
      split at stepped
      · cases stepped
      · obtain rfl := Option.some.inj stepped
        exact .created i place (Nat.le_of_not_lt ‹_›)
  | store caller index pid =>
      simp only [place] at stepped
      obtain rfl := Option.some.inj stepped
      exact .stored caller index pid place
  | wait =>
      simp only [place] at stepped
      split at stepped
      · cases stepped
      · obtain rfl := Option.some.inj stepped
        exact .drained place (Int.not_lt.mp ‹_›)
  | handle pid i =>
      simp only [place] at stepped
      split at stepped
      · split at stepped
        · cases stepped
        · obtain rfl := Option.some.inj stepped
          exact .skipped pid i place ‹_› ‹_›
      · obtain rfl := Option.some.inj stepped
        exact .handled pid i place (Int.not_lt.mp ‹_›)
  | stopped => simp [place] at stepped

theorem stepped_of_step
    (stepped : step numChild parent event = some after) : Stepped numChild parent event after := by
  cases event with
  | advance => exact stepped_of_advance stepped
  | forked result =>
      obtain ⟨allowed, sited⟩ := Option.ite_none_right_eq_some.mp stepped
      obtain ⟨⟨caller, index⟩, site, rfl⟩ := Option.map_eq_some_iff.mp sited
      exact .forked result caller index allowed site
  | interrupted =>
      obtain ⟨waiting, same⟩ := Option.ite_none_right_eq_some.mp stepped
      obtain rfl := Option.some.inj same
      exact .interrupted waiting
  | waitError =>
      obtain ⟨waiting, same⟩ := Option.ite_none_right_eq_some.mp stepped
      obtain rfl := Option.some.inj same
      exact .waitError waiting
  | reported pid report =>
      obtain ⟨⟨waiting, member⟩, same⟩ := Option.ite_none_right_eq_some.mp stepped
      obtain rfl := Option.some.inj same
      exact .reported pid report waiting member
  | signal =>
      obtain rfl := Option.some.inj stepped
      exact .signal

end Inversion

end Supervisor

end Tpt
