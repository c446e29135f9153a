import Mathlib.Algebra.BigOperators.Group.Finset.Piecewise
import Mathlib.Algebra.Order.BigOperators.Group.Finset
import Mathlib.Algebra.Order.Group.Multiset
import Mathlib.Tactic

/-!
Totals over the local states of finitely many threads, what a change of one
local state does to them, and the semaphores whose units the threads hold.
-/

namespace Tpt

universe u v w

variable {Thread : Type u} {Local : Type v} {M : Type w}

theorem update_cases
    [DecidableEq Thread] {locals : Thread → Local} {thread other : Thread} {value found : Local}
    (lookup : Function.update locals thread value other = found) :
    (other = thread ∧ value = found) ∨ (other ≠ thread ∧ locals other = found) := by
  by_cases same : other = thread
  · subst same
    rw [Function.update_self] at lookup
    exact .inl ⟨rfl, lookup⟩
  · rw [Function.update_of_ne same] at lookup
    exact .inr ⟨same, lookup⟩

variable [Fintype Thread] [DecidableEq Thread]

/-- The sum of a measure over all threads. -/
def total [AddCommMonoid M] (measure : Local → M) (locals : Thread → Local) : M :=
  ∑ thread, measure (locals thread)

theorem total_update
    [AddCommMonoid M] (measure : Local → M) (locals : Thread → Local)
    (thread : Thread) (value : Local) :
    total measure (Function.update locals thread value) + measure (locals thread) =
      total measure locals + measure value := by
  have pushed : (fun other => measure (Function.update locals thread value other)) =
      Function.update (fun other => measure (locals other)) thread (measure value) :=
    Function.comp_update measure locals thread value
  have before : measure (locals thread) +
      ∑ other ∈ Finset.univ.erase thread, measure (locals other) = total measure locals :=
    Finset.add_sum_erase Finset.univ (fun other => measure (locals other)) (Finset.mem_univ thread)
  unfold total at before ⊢
  rw [pushed, Finset.sum_update_of_mem (Finset.mem_univ thread), Finset.sdiff_singleton_eq_erase,
    ← before]
  abel

omit [DecidableEq Thread] in
theorem single_le_total (measure : Local → Nat) (locals : Thread → Local) (thread : Thread) :
    measure (locals thread) ≤ total measure locals :=
  Finset.single_le_sum (f := fun thread => measure (locals thread)) (fun _ _ => Nat.zero_le _)
    (Finset.mem_univ thread)

section Cancel

variable [AddCancelCommMonoid M] {measure : Local → M} {locals : Thread → Local}
variable {thread : Thread} {value : Local}

/-- A shared pool and what each thread holds of it: a move of one thread that
keeps their sum keeps the sum over all threads. -/
theorem sum_balance
    (holding : Thread → Local → M) {pool after : M}
    (moved : after + holding thread value = pool + holding thread (locals thread)) :
    after + ∑ other, holding other (Function.update locals thread value other) =
      pool + ∑ other, holding other (locals other) := by
  have others : ∑ other ∈ Finset.univ.erase thread,
      holding other (Function.update locals thread value other) =
        ∑ other ∈ Finset.univ.erase thread, holding other (locals other) := by
    apply Finset.sum_congr rfl
    intro other member
    rw [Function.update_of_ne (Finset.ne_of_mem_erase member)]
  rw [← Finset.add_sum_erase Finset.univ _ (Finset.mem_univ thread), others,
    Function.update_self, ← add_assoc, moved, add_assoc,
    Finset.add_sum_erase Finset.univ (fun other => holding other (locals other))
      (Finset.mem_univ thread)]

theorem total_gain
    {amount : M} (gains : measure value = amount + measure (locals thread)) :
    total measure (Function.update locals thread value) = amount + total measure locals := by
  have changed := total_update measure locals thread value
  rw [gains, ← add_assoc, add_comm (total measure locals) amount] at changed
  exact add_right_cancel changed

theorem total_loss
    {amount : M} (loses : amount + measure value = measure (locals thread)) :
    amount + total measure (Function.update locals thread value) = total measure locals := by
  have changed := total_update measure locals thread value
  rw [← loses, ← add_assoc, add_comm _ amount] at changed
  exact add_right_cancel changed

theorem total_same
    (same : measure value = measure (locals thread)) :
    total measure (Function.update locals thread value) = total measure locals := by
  have unchanged := total_update measure locals thread value
  rw [same] at unchanged
  exact add_right_cancel unchanged

end Cancel

/-- `sem_wait`, enabled only while the semaphore is positive. -/
def semWait : Nat → Option Nat
  | 0 => none
  | value + 1 => some value

def semPost (value : Nat) : Nat := value + 1

theorem semWait_eq_some {value taken : Nat} : semWait value = some taken ↔ value = taken + 1 := by
  cases value with
  | zero => simp [semWait]
  | succ rest => simp [semWait]

theorem semWait_eq_none {value : Nat} : semWait value = none ↔ value = 0 := by
  cases value with
  | zero => simp [semWait]
  | succ rest => simp [semWait]

def countThreads (predicate : Local → Prop) [DecidablePred predicate]
    (locals : Thread → Local) : Nat :=
  total (fun value => if predicate value then 1 else 0) locals

section Count

variable {predicate : Local → Prop} [DecidablePred predicate] {locals : Thread → Local}
variable {thread : Thread} {value : Local}

omit [DecidableEq Thread] in
theorem countThreads_eq_card :
    countThreads predicate locals =
      (Finset.univ.filter fun thread => predicate (locals thread)).card :=
  (Finset.card_filter _ _).symm

theorem countThreads_same
    (same : predicate value ↔ predicate (locals thread)) :
    countThreads predicate (Function.update locals thread value) =
      countThreads predicate locals := by
  apply total_same
  simp only [same]

theorem countThreads_gain
    (before : ¬ predicate (locals thread)) (after : predicate value) :
    countThreads predicate (Function.update locals thread value) =
      1 + countThreads predicate locals := by
  apply total_gain
  simp only [before, after, if_true, if_false, Nat.add_zero]

theorem countThreads_le_succ :
    countThreads predicate locals ≤
      countThreads predicate (Function.update locals thread value) + 1 := by
  have changed := total_update (fun value => if predicate value then 1 else 0) locals thread value
  have small : (if predicate (locals thread) then 1 else 0) ≤ 1 := by split <;> decide
  unfold countThreads
  omega

end Count

end Tpt
