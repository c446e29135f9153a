import Tpt.Supervisor.Bookkeeping

/-!
Which processes `kill_all_children` signals.

It signals whatever the table holds.  That is the running children exactly, as
long as every fork succeeded, no child exited with status zero or was stopped,
and the signal does not come between the end of a child, or the start of the
parent, and the store of the pid that fills the slot.
-/

namespace Tpt

namespace Supervisor

/-- `kill_all_children` signals running children only, and all of them. -/
def SignalsOwnChildren (numChild : Int) (parent : Parent) : Prop :=
  (∀ pid, pid ∈ killed numChild parent → 0 < pid ∧ pid ∈ parent.running) ∧
    ∀ pid, pid ∈ parent.running → pid ∈ killed numChild parent

/-- No slot waits for the pid of a child: the loop of `create_multiple_child`
is done, and that of `handle_child_exit` finds no further slot to restart. -/
def Parent.Settled (numChild : Int) (parent : Parent) : Prop :=
  match parent.control with
  | .create i => clampChild numChild ≤ i
  | .store _ _ _ => False
  | .handle pid i => ∀ slot : Nat, i ≤ slot → slot < numChild → parent.childTable slot ≠ pid
  | .wait => True
  | .stopped => True

/-- Forks succeed, children only end badly, and signals find the table settled. -/
def Undisturbed (numChild : Int) (parent : Parent) : Event → Prop
  | .forked none => False
  | .reported _ report => report.terminates = true ∧ 0 < report.status
  | .signal => parent.Settled numChild
  | _ => True

def UndisturbedRun (numChild : Int) : List Event → Parent → Prop :=
  Trace (fun parent => parent = initialParent)
    (fun parent event after =>
      step numChild parent event = some after ∧ Undisturbed numChild parent event)

section Live

variable {numChild : Int} {parent : Parent}

open Classical in
theorem owed_eq_card (numChild : Int) (parent : Parent) :
    parent.owed numChild =
      ((Finset.range (parent.slots numChild)).filter fun slot => parent.Awaited slot).card := by
  cases place : parent.control with
  | handle pid i => simp only [Parent.owed, Parent.slots, Parent.Awaited, place, matching]
  | create i => simp [Parent.owed, Parent.Awaited, place]
  | store caller index pid => simp [Parent.owed, Parent.Awaited, place]
  | wait => simp [Parent.owed, Parent.Awaited, place]
  | stopped => simp [Parent.owed, Parent.Awaited, place]

/-- Without exits with status zero, every slot holds a running child or waits
for one. -/
theorem Tracked.live
    (tracked : Tracked numChild 0 parent) {slot : Nat} (inside : slot < parent.slots numChild)
    (free : ¬ parent.Awaited slot) : parent.childTable slot ∈ parent.running := by
  classical
  let held := (Finset.range (parent.slots numChild)).filter fun slot => ¬ parent.Awaited slot
  have enough : (held.image parent.childTable).card ≤ parent.running.card := by
    have parts := Finset.card_filter_add_card_filter_not (s := Finset.range (parent.slots numChild))
      (fun slot => parent.Awaited slot)
    have size := tracked.size
    rw [Finset.card_range, ← owed_eq_card] at parts
    have shrinks : (held.image parent.childTable).card ≤ held.card := Finset.card_image_le
    have counted : parent.owed numChild + held.card = parent.slots numChild := parts
    omega
  have placed : parent.running ⊆ held.image parent.childTable := by
    intro pid member
    obtain ⟨slot, inside, holds, free⟩ := tracked.placed pid member
    refine Finset.mem_image.mpr ⟨slot, ?_, holds⟩
    exact Finset.mem_filter.mpr ⟨Finset.mem_range.mpr inside, free⟩
  rw [Finset.eq_of_subset_of_card_le placed enough]
  refine Finset.mem_image_of_mem parent.childTable ?_
  exact Finset.mem_filter.mpr ⟨Finset.mem_range.mpr inside, free⟩

theorem Tracked.fresh
    (tracked : Tracked numChild 0 parent.settle) {caller : Caller} {index : Nat} {pid : Int}
    (allowed : parent.mayFork (some pid) = true)
    (site : parent.forkSite numChild = some (caller, index))
    {slot : Nat} (different : slot ≠ index) : parent.childTable slot ≠ pid := by
  obtain ⟨positive, new⟩ := of_decide_eq_true allowed
  rintro rfl
  unfold Parent.forkSite at site
  have unsettled : parent.settle = parent ∧ ∀ waits : parent.Awaited slot,
      slot < parent.slots numChild → slot = index := by
    cases place : parent.control with
    | create i =>
        refine ⟨by simp only [Parent.settle, place], ?_⟩
        intro waits
        simp only [Parent.Awaited, place] at waits
    | handle ended i =>
        have same : parent.settle = parent := by simp only [Parent.settle, place]
        refine ⟨same, ?_⟩
        intro waits inside
        simp only [place] at site
        obtain ⟨⟨small, found⟩, pair⟩ := Option.ite_none_right_eq_some.mp site
        obtain ⟨rfl, rfl⟩ := Prod.mk.inj (Option.some.inj pair)
        simp only [Parent.Awaited, place] at waits
        rw [same] at tracked
        apply tracked.distinct slot i inside
        · simp only [Parent.slots, place] at inside ⊢
          exact Nat.lt_of_le_of_lt waits.1 inside
        · rw [waits.2, found]
    | store caller index pid => simp [place] at site
    | wait => simp [place] at site
    | stopped => simp [place] at site
  rw [unsettled.1] at tracked
  by_cases inside : slot < parent.slots numChild
  · by_cases waits : parent.Awaited slot
    · exact different (unsettled.2 waits inside)
    · exact new (tracked.live inside waits)
  · rw [tracked.blank slot (Nat.le_of_not_lt inside)] at positive
    exact Int.lt_irrefl 0 positive

theorem Tracked.undisturbed
    (tracked : Tracked numChild 0 parent.settle) (unclamped : Unclamped numChild)
    {event : Event} {after : Parent} (stepped : Supervisor.step numChild parent event = some after)
    (undisturbed : Undisturbed numChild parent event) :
    Regular numChild parent event ∧ event.zeroExit = 0 := by
  cases event with
  | forked result =>
      cases result with
      | none => exact undisturbed.elim
      | some pid =>
          have allowed := (Option.ite_none_right_eq_some.mp stepped).1
          refine ⟨?_, rfl⟩
          intro caller index site slot different
          exact tracked.fresh allowed site different
  | reported pid report =>
      exact ⟨⟨undisturbed.1, fun _ => unclamped⟩, if_pos undisturbed.2⟩
  | advance => exact ⟨trivial, rfl⟩
  | interrupted => exact ⟨trivial, rfl⟩
  | waitError => exact ⟨trivial, rfl⟩
  | signal => exact ⟨trivial, rfl⟩

theorem tracked_of_undisturbedRun
    {history : List Event} (unclamped : Unclamped numChild)
    (run : UndisturbedRun numChild history parent) : Tracked numChild 0 parent.settle := by
  refine Trace.invariant (fun _ parent => Tracked numChild 0 parent.settle) ?_ ?_ run
  · rintro state rfl
    exact Tracked.initial numChild
  · rintro history state event after tracked ⟨stepped, undisturbed⟩
    obtain ⟨regular, exits⟩ := tracked.undisturbed unclamped stepped undisturbed
    have next := tracked.step (stepped_of_step stepped) regular
    rwa [exits] at next

theorem Tracked.signalsOwnChildren
    (tracked : Tracked numChild 0 parent) (unclamped : Unclamped numChild)
    (slots : parent.slots numChild = clampChild numChild)
    (free : ∀ slot, slot < clampChild numChild → ¬ parent.Awaited slot) :
    SignalsOwnChildren numChild parent := by
  have bound : numChild.toNat = clampChild numChild :=
    (congrArg Int.toNat (clampChild_of_unclamped unclamped)).symm
  refine ⟨?_, ?_⟩
  · intro pid signaled
    obtain ⟨slot, inside, rfl⟩ := List.mem_map.mp signaled
    rw [List.mem_range, bound] at inside
    have member := tracked.live (slots ▸ inside) (free slot inside)
    exact ⟨tracked.positive _ member, member⟩
  · intro pid member
    obtain ⟨slot, inside, holds, _⟩ := tracked.placed pid member
    refine List.mem_map.mpr ⟨slot, ?_, holds⟩
    rw [List.mem_range, bound, ← slots]
    exact inside

theorem Tracked.awaits_nothing
    (tracked : Tracked numChild 0 parent.settle) (unclamped : Unclamped numChild)
    (settled : parent.Settled numChild) :
    parent.settle = parent ∧ parent.slots numChild = clampChild numChild ∧
      ∀ slot, slot < clampChild numChild → ¬ parent.Awaited slot := by
  have bound := clampChild_of_unclamped unclamped
  cases place : parent.control with
  | create i =>
      have reached := tracked.slots_le
      simp only [Parent.settle, Parent.slots, place] at reached
      simp only [Parent.Settled, place] at settled
      simp only [Parent.settle, Parent.slots, Parent.Awaited, place]
      exact ⟨trivial, Nat.le_antisymm reached settled, fun _ _ => id⟩
  | handle pid i =>
      simp only [Parent.Settled, place] at settled
      simp only [Parent.settle, Parent.slots, Parent.Awaited, place]
      refine ⟨trivial, trivial, ?_⟩
      rintro slot inside ⟨later, holds⟩
      exact settled slot later ((Int.ofNat_lt.mpr inside).trans_eq bound) holds
  | store caller index pid => simp only [Parent.Settled, place] at settled
  | wait => simp [Parent.settle, Parent.slots, Parent.Awaited, place]
  | stopped => simp [Parent.settle, Parent.slots, Parent.Awaited, place]

/-- In undisturbed runs every signal goes to the running children, to all of
them and to nobody else. -/
theorem signals_own_children
    {history : List Event} (unclamped : Unclamped numChild)
    (run : UndisturbedRun numChild (.signal :: history) parent) :
    SignalsOwnChildren numChild parent := by
  have settled : parent.Settled numChild := by
    cases run with
    | next _ stepped =>
        obtain rfl := Option.some.inj stepped.1
        exact stepped.2
  have tracked := tracked_of_undisturbedRun unclamped run
  obtain ⟨same, slots, free⟩ := tracked.awaits_nothing unclamped settled
  rw [same] at tracked
  exact tracked.signalsOwnChildren unclamped slots free

end Live

theorem signals_own_children_one_child :
    Unclamped 1 ∧ ∃ parent,
      UndisturbedRun 1 [.signal, .advance, .advance, .forked (some 100)] parent ∧
        SignalsOwnChildren 1 parent := by
  have unclamped : Unclamped 1 := ⟨by decide, by decide⟩
  have started : UndisturbedRun 1 [.forked (some 100)] _ := .next (.start rfl) ⟨rfl, trivial⟩
  have stored : UndisturbedRun 1 [.advance, .forked (some 100)] _ := .next started ⟨rfl, trivial⟩
  have waits : UndisturbedRun 1 [.advance, .advance, .forked (some 100)] _ :=
    .next stored ⟨rfl, trivial⟩
  have signaled : UndisturbedRun 1 [.signal, .advance, .advance, .forked (some 100)] _ :=
    .next waits ⟨rfl, trivial⟩
  exact ⟨unclamped, _, signaled, signals_own_children unclamped signaled⟩

/-- After a failed fork the parent signals -1: every process it may signal. -/
theorem failed_fork_signals_everyone :
    Unclamped 1 ∧ ∃ parent, Run 1 [.signal, .advance, .advance, .forked none] parent ∧
      killed 1 parent = [-1] ∧ ¬ SignalsOwnChildren 1 parent := by
  have failed : Run 1 [.forked none] _ := .next (.start rfl) rfl
  have stored : Run 1 [.advance, .forked none] _ := .next failed rfl
  have waits : Run 1 [.advance, .advance, .forked none] _ := .next stored rfl
  have signaled : Run 1 [.signal, .advance, .advance, .forked none] _ := .next waits rfl
  refine ⟨⟨by decide, by decide⟩, _, signaled, rfl, ?_⟩
  rintro ⟨own, _⟩
  exact absurd (own (-1) (List.mem_singleton_self _)).1 (by decide)

end Supervisor

end Tpt
