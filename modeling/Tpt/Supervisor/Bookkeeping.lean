import Tpt.Supervisor.Model

/-!
How the table, the counter and the running children stay together.

A step is regular when its fork succeeds with a pid that no other slot still
stores, its report is not a stop, and a child that ends badly does so under a
count that `create_multiple_child` does not clamp.
-/

namespace Tpt

namespace Supervisor

/-- The counts that `create_multiple_child` leaves as they are. -/
def Unclamped (numChild : Int) : Prop := 1 ≤ numChild ∧ numChild ≤ maxChild

/-- The steps under which the bookkeeping is right. -/
def Regular (numChild : Int) (parent : Parent) : Event → Prop
  | .forked none => False
  | .forked (some pid) => ∀ caller index, parent.forkSite numChild = some (caller, index) →
      ∀ slot, slot ≠ index → parent.childTable slot ≠ pid
  | .reported _ report =>
      report.terminates = true ∧ (0 < report.status → Unclamped numChild)
  | _ => True

def RegularRun (numChild : Int) : List Event → Parent → Prop :=
  Trace (fun parent => parent = initialParent)
    (fun parent event after =>
      step numChild parent event = some after ∧ Regular numChild parent event)

def Event.zeroExit : Event → Nat
  | .reported _ report => if 0 < report.status then 0 else 1
  | _ => 0

def zeroExits (history : List Event) : Nat := (history.map Event.zeroExit).sum

def matching (table : Nat → Int) (pid : Int) (bound i : Nat) : Nat :=
  ((Finset.range bound).filter fun slot => i ≤ slot ∧ table slot = pid).card

section Matching

variable {table : Nat → Int} {pid : Int} {bound i : Nat}

theorem matching_end (ended : bound ≤ i) : matching table pid bound i = 0 := by
  rw [matching, Finset.card_eq_zero, Finset.filter_eq_empty_iff]
  rintro slot member ⟨later, _⟩
  exact absurd (Finset.mem_range.mp member) (Nat.not_lt.mpr (Nat.le_trans ended later))

theorem matching_skip (different : table i ≠ pid) :
    matching table pid bound (i + 1) = matching table pid bound i := by
  unfold matching
  congr 1
  apply Finset.filter_congr
  intro slot _
  constructor
  · rintro ⟨later, holds⟩
    exact ⟨Nat.le_of_succ_le later, holds⟩
  · rintro ⟨later, holds⟩
    refine ⟨Nat.lt_of_le_of_ne later ?_, holds⟩
    rintro rfl
    exact different holds

theorem matching_take (inside : i < bound) (found : table i = pid) :
    matching table pid bound i = matching table pid bound (i + 1) + 1 := by
  have split : (Finset.range bound).filter (fun slot => i ≤ slot ∧ table slot = pid) =
      insert i ((Finset.range bound).filter fun slot => i + 1 ≤ slot ∧ table slot = pid) := by
    ext slot
    simp only [Finset.mem_filter, Finset.mem_range, Finset.mem_insert]
    constructor
    · rintro ⟨small, later, holds⟩
      rcases Nat.eq_or_lt_of_le later with rfl | after
      · exact .inl rfl
      · exact .inr ⟨small, after, holds⟩
    · rintro (rfl | ⟨small, later, holds⟩)
      · exact ⟨inside, Nat.le_refl _, found⟩
      · exact ⟨small, Nat.le_of_succ_le later, holds⟩
  unfold matching
  rw [split, Finset.card_insert_of_notMem]
  simp

theorem matching_update (value : Int) :
    matching (Function.update table i value) pid bound (i + 1) =
      matching table pid bound (i + 1) := by
  unfold matching
  congr 1
  apply Finset.filter_congr
  intro slot _
  constructor
  · rintro ⟨later, holds⟩
    rw [Function.update_of_ne (Nat.ne_of_gt later)] at holds
    exact ⟨later, holds⟩
  · rintro ⟨later, holds⟩
    rw [Function.update_of_ne (Nat.ne_of_gt later)]
    exact ⟨later, holds⟩

theorem matching_unique
    {slot : Nat} (inside : slot < bound) (found : table slot = pid)
    (distinct : ∀ other, other < bound → table other = pid → other = slot) :
    matching table pid bound 0 = 1 := by
  rw [matching, Finset.card_eq_one]
  refine ⟨slot, ?_⟩
  ext other
  simp only [Finset.mem_filter, Finset.mem_range, Finset.mem_singleton, Nat.zero_le, true_and]
  constructor
  · rintro ⟨small, holds⟩
    exact distinct other small holds
  · rintro rfl
    exact ⟨inside, found⟩

end Matching

namespace Parent

/-- The parent once a pending store into the table is done. -/
def settle (parent : Parent) : Parent :=
  match parent.control with
  | .store caller index pid => parent.storePid caller index pid
  | _ => parent

def slots (numChild : Int) (parent : Parent) : Nat :=
  match parent.control with
  | .create i => i
  | _ => clampChild numChild

/-- The slots that `handle_child_exit` has yet to restart. -/
def owed (numChild : Int) (parent : Parent) : Nat :=
  match parent.control with
  | .handle pid i => matching parent.childTable pid (clampChild numChild) i
  | _ => 0

def Awaited (parent : Parent) (slot : Nat) : Prop :=
  match parent.control with
  | .handle pid i => i ≤ slot ∧ parent.childTable slot = pid
  | _ => False

end Parent

/-- The bookkeeping of a parent without a pending store, after `zeros` exits
with status zero. -/
structure Tracked (numChild : Int) (zeros : Nat) (parent : Parent) : Prop where
  slots_le : parent.slots numChild ≤ clampChild numChild
  blank : ∀ slot, parent.slots numChild ≤ slot → parent.childTable slot = 0
  distinct : ∀ first second, first < parent.slots numChild → second < parent.slots numChild →
    parent.childTable first = parent.childTable second → first = second
  placed : ∀ pid, pid ∈ parent.running →
    ∃ slot, slot < parent.slots numChild ∧ parent.childTable slot = pid ∧ ¬ parent.Awaited slot
  positive : ∀ pid, pid ∈ parent.running → 0 < pid
  count : parent.activeChildCount + zeros = parent.slots numChild
  size : parent.running.card + zeros + parent.owed numChild = parent.slots numChild
  handling : ∀ pid i, parent.control = .handle pid i →
    Unclamped numChild ∧ i ≤ clampChild numChild

theorem clampChild_of_unclamped {numChild : Int} (unclamped : Unclamped numChild) :
    (clampChild numChild : Int) = numChild := by
  obtain ⟨positive, small⟩ := unclamped
  rw [clampChild, if_neg (Int.not_le.mpr positive), if_neg (Int.not_lt.mpr small)]
  exact Int.toNat_of_nonneg (Int.le_of_lt positive)

theorem lt_clampChild
    {numChild : Int} {i : Nat} (unclamped : Unclamped numChild) (inside : i < numChild) :
    i < clampChild numChild :=
  Int.ofNat_lt.mp (inside.trans_eq (clampChild_of_unclamped unclamped).symm)

theorem clampChild_le (numChild : Int) : clampChild numChild ≤ maxChild := by
  unfold clampChild
  split
  · decide
  · split
    · exact Nat.le_refl _
    · exact Int.toNat_le.mpr (Int.not_lt.mp ‹_›)

theorem Tracked.initial (numChild : Int) : Tracked numChild 0 initialParent where
  slots_le := Nat.zero_le _
  blank _ _ := rfl
  distinct _ _ small := absurd small (Nat.not_lt_zero _)
  placed pid member := absurd member (Finset.notMem_empty pid)
  positive pid member := absurd member (Finset.notMem_empty pid)
  count := rfl
  size := rfl
  handling _ _ place := Control.noConfusion place

theorem distinct_update
    {table : Nat → Int} {bound i : Nat} {pid : Int}
    (fresh : ∀ slot, slot ≠ i → table slot ≠ pid)
    (distinct : ∀ first second, first < bound → second < bound → first ≠ i → second ≠ i →
      table first = table second → first = second)
    {first second : Nat} (firstIn : first < bound) (secondIn : second < bound)
    (same : Function.update table i pid first = Function.update table i pid second) :
    first = second := by
  by_cases atFirst : first = i
  · by_cases atSecond : second = i
    · rw [atFirst, atSecond]
    · rw [atFirst, Function.update_self, Function.update_of_ne atSecond] at same
      exact absurd same.symm (fresh second atSecond)
  · by_cases atSecond : second = i
    · rw [atSecond, Function.update_self, Function.update_of_ne atFirst] at same
      exact absurd same (fresh first atFirst)
    · rw [Function.update_of_ne atFirst, Function.update_of_ne atSecond] at same
      exact distinct first second firstIn secondIn atFirst atSecond same

namespace Tracked

variable {numChild : Int} {zeros : Nat} {parent after : Parent} {event : Event}

theorem goto
    (tracked : Tracked numChild zeros parent) {control : Control}
    (slots : { parent with control }.slots numChild = parent.slots numChild)
    (owed : { parent with control }.owed numChild = parent.owed numChild)
    (awaited : ∀ slot, { parent with control }.Awaited slot → parent.Awaited slot)
    (handling : ∀ pid i, control = .handle pid i →
      Unclamped numChild ∧ i ≤ clampChild numChild) :
    Tracked numChild zeros { parent with control } where
  slots_le := slots ▸ tracked.slots_le
  blank := slots ▸ tracked.blank
  distinct := slots ▸ tracked.distinct
  placed pid member := by
    obtain ⟨slot, inside, holds, free⟩ := tracked.placed pid member
    exact ⟨slot, slots ▸ inside, holds, fun waits => free (awaited slot waits)⟩
  positive := tracked.positive
  count := slots ▸ tracked.count
  size := by
    rw [slots, owed]
    exact tracked.size
  handling := handling

theorem created
    (tracked : Tracked numChild zeros parent) {i : Nat} (place : parent.control = .create i)
    (ended : clampChild numChild ≤ i) :
    Tracked numChild zeros { parent with control := .wait } := by
  have reached := tracked.slots_le
  simp only [Parent.slots, place] at reached
  refine tracked.goto ?_ ?_ ?_ ?_
  · simp only [Parent.slots, place]
    exact Nat.le_antisymm ended reached
  · simp only [Parent.owed, place]
  · exact fun slot waits => waits.elim
  · exact fun pid i handling => Control.noConfusion handling

theorem stopped
    (tracked : Tracked numChild zeros parent) (place : parent.control = .wait) :
    Tracked numChild zeros { parent with control := .stopped } := by
  refine tracked.goto ?_ ?_ ?_ ?_
  · simp only [Parent.slots, place]
  · simp only [Parent.owed, place]
  · exact fun slot waits => waits.elim
  · exact fun pid i handling => Control.noConfusion handling

theorem skipped
    (tracked : Tracked numChild zeros parent) {pid : Int} {i : Nat}
    (place : parent.control = .handle pid i) (inside : i < numChild)
    (different : parent.childTable i ≠ pid) :
    Tracked numChild zeros { parent with control := .handle pid (i + 1) } := by
  obtain ⟨unclamped, _⟩ := tracked.handling pid i place
  refine tracked.goto ?_ ?_ ?_ ?_
  · simp only [Parent.slots, place]
  · simp only [Parent.owed, place]
    exact matching_skip different
  · rintro slot ⟨later, holds⟩
    simp only [Parent.Awaited, place]
    exact ⟨Nat.le_of_succ_le later, holds⟩
  · rintro _ _ ⟨rfl, rfl⟩
    exact ⟨unclamped, lt_clampChild unclamped inside⟩

theorem handled
    (tracked : Tracked numChild zeros parent) {pid : Int} {i : Nat}
    (place : parent.control = .handle pid i) (ended : numChild ≤ i) :
    Tracked numChild zeros { parent with control := .wait } := by
  have bound := clampChild_of_unclamped (tracked.handling pid i place).1
  have reached : clampChild numChild ≤ i := Int.ofNat_le.mp (bound.trans_le ended)
  refine tracked.goto ?_ ?_ ?_ ?_
  · simp only [Parent.slots, place]
  · simp only [Parent.owed, place]
    exact (matching_end reached).symm
  · exact fun slot waits => waits.elim
  · exact fun pid i handling => Control.noConfusion handling

theorem forkCreate
    (tracked : Tracked numChild zeros parent) {i : Nat} {pid : Int}
    (place : parent.control = .create i) (inside : i < clampChild numChild)
    (positive : 0 < pid) (new : pid ∉ parent.running)
    (fresh : ∀ slot, slot ≠ i → parent.childTable slot ≠ pid) :
    Tracked numChild zeros
      ({ parent with running := insert pid parent.running }.storePid
        .createMultipleChild i pid) := by
  have slots : parent.slots numChild = i := by simp only [Parent.slots, place]
  have owed : parent.owed numChild = 0 := by simp only [Parent.owed, place]
  have count := tracked.count
  have size := tracked.size
  refine ⟨inside, ?_, ?_, ?_, ?_, ?_, ?_, fun _ _ handling => Control.noConfusion handling⟩
  · intro slot later
    have other : slot ≠ i := Nat.ne_of_gt later
    exact (Function.update_of_ne other pid parent.childTable).trans
      (tracked.blank slot (slots ▸ Nat.le_of_succ_le later))
  · intro first second firstIn secondIn
    refine distinct_update fresh ?_ firstIn secondIn
    intro first second firstIn secondIn atFirst atSecond
    apply tracked.distinct first second
    · exact slots ▸ Nat.lt_of_le_of_ne (Nat.le_of_lt_succ firstIn) atFirst
    · exact slots ▸ Nat.lt_of_le_of_ne (Nat.le_of_lt_succ secondIn) atSecond
  · intro other member
    rcases Finset.mem_insert.mp member with rfl | before
    · refine ⟨i, Nat.lt_succ_self i, ?_, id⟩
      exact Function.update_self i other parent.childTable
    · obtain ⟨slot, small, holds, _⟩ := tracked.placed other before
      have different : slot ≠ i := Nat.ne_of_lt (slots ▸ small)
      refine ⟨slot, Nat.lt_succ_of_lt (slots ▸ small), ?_, id⟩
      exact (Function.update_of_ne different pid parent.childTable).trans holds
  · intro other member
    rcases Finset.mem_insert.mp member with rfl | before
    · exact positive
    · exact tracked.positive other before
  · rw [slots] at count
    simp only [Parent.storePid, Parent.slots, if_pos (Int.ne_of_gt positive)]
    omega
  · rw [slots, owed] at size
    simp only [Parent.storePid, Parent.slots, Parent.owed, Finset.card_insert_of_notMem new]
    omega

theorem forkHandle
    (tracked : Tracked numChild zeros parent) {i : Nat} {ended pid : Int}
    (place : parent.control = .handle ended i) (inside : i < numChild)
    (found : parent.childTable i = ended) (positive : 0 < pid) (new : pid ∉ parent.running)
    (fresh : ∀ slot, slot ≠ i → parent.childTable slot ≠ pid) :
    Tracked numChild zeros
      ({ parent with running := insert pid parent.running }.storePid
        (.handleChildExit ended) i pid) := by
  have slots : parent.slots numChild = clampChild numChild := by simp only [Parent.slots, place]
  have unclamped := (tracked.handling ended i place).1
  have small := lt_clampChild unclamped inside
  have awaited : parent.Awaited i := by
    simp only [Parent.Awaited, place]
    exact ⟨Nat.le_refl i, found⟩
  refine ⟨Nat.le_refl _, ?_, ?_, ?_, ?_, ?_, ?_, ?_⟩
  · intro slot later
    have other : slot ≠ i := Nat.ne_of_gt (Nat.lt_of_lt_of_le small later)
    exact (Function.update_of_ne other pid parent.childTable).trans
      (tracked.blank slot (slots ▸ later))
  · intro first second firstIn secondIn
    refine distinct_update fresh ?_ firstIn secondIn
    intro first second firstIn secondIn _ _
    exact tracked.distinct first second (slots ▸ firstIn) (slots ▸ secondIn)
  · intro other member
    rcases Finset.mem_insert.mp member with rfl | before
    · refine ⟨i, small, ?_, ?_⟩
      · exact Function.update_self i other parent.childTable
      · rintro ⟨later, _⟩
        exact Nat.not_succ_le_self i later
    · obtain ⟨slot, slotIn, holds, free⟩ := tracked.placed other before
      rw [slots] at slotIn
      have different : slot ≠ i := by
        rintro rfl
        exact free awaited
      have kept := Function.update_of_ne different pid parent.childTable
      refine ⟨slot, slotIn, kept.trans holds, ?_⟩
      rintro ⟨later, waits⟩
      apply free
      simp only [Parent.Awaited, place]
      refine ⟨Nat.le_of_succ_le later, ?_⟩
      rw [← kept]
      exact waits
  · intro other member
    rcases Finset.mem_insert.mp member with rfl | before
    · exact positive
    · exact tracked.positive other before
  · have count := tracked.count
    rw [slots] at count
    exact count
  · have size := tracked.size
    simp only [Parent.owed, place] at size
    rw [slots, matching_take small found] at size
    simp only [Parent.storePid, Parent.slots, Parent.owed, Finset.card_insert_of_notMem new,
      matching_update]
    omega
  · rintro _ _ ⟨rfl, rfl⟩
    exact ⟨unclamped, small⟩

theorem slots_of_wait (numChild : Int) (place : parent.control = .wait) :
    parent.slots numChild = clampChild numChild := by
  simp only [Parent.slots, place]

theorem size_of_wait
    (tracked : Tracked numChild zeros parent) (place : parent.control = .wait) :
    parent.running.card + zeros = clampChild numChild := by
  have size := tracked.size
  rw [slots_of_wait numChild place] at size
  simpa only [Parent.owed, place, Nat.add_zero] using size

theorem zeroExit
    (tracked : Tracked numChild zeros parent) {pid : Int} (place : parent.control = .wait)
    (member : pid ∈ parent.running) :
    Tracked numChild (zeros + 1)
      { parent with
        activeChildCount := parent.activeChildCount - 1
        running := parent.running.erase pid } := by
  have slots := slots_of_wait numChild place
  have sizeBefore := tracked.size_of_wait place
  have some_running := Finset.card_pos.mpr ⟨pid, member⟩
  refine ⟨tracked.slots_le, tracked.blank, tracked.distinct, ?_, ?_, ?_, ?_, tracked.handling⟩
  · intro other stays
    exact tracked.placed other (Finset.mem_of_mem_erase stays)
  · intro other stays
    exact tracked.positive other (Finset.mem_of_mem_erase stays)
  · have count := tracked.count
    change parent.activeChildCount - 1 + ((zeros + 1 : Nat) : Int) = parent.slots numChild
    omega
  · change (parent.running.erase pid).card + (zeros + 1) + parent.owed numChild =
      parent.slots numChild
    rw [slots, Finset.card_erase_of_mem member]
    simp only [Parent.owed, place]
    omega

theorem badExit
    (tracked : Tracked numChild zeros parent) {pid : Int} (place : parent.control = .wait)
    (member : pid ∈ parent.running) (unclamped : Unclamped numChild) :
    Tracked numChild zeros
      { parent with
        control := .handle pid 0
        running := parent.running.erase pid } := by
  have slots := slots_of_wait numChild place
  have sizeBefore := tracked.size_of_wait place
  have some_running := Finset.card_pos.mpr ⟨pid, member⟩
  have blank := tracked.blank
  have distinct := tracked.distinct
  have count := tracked.count
  rw [slots] at blank distinct count
  refine ⟨Nat.le_refl _, blank, distinct, ?_, ?_, count, ?_, ?_⟩
  · intro other stays
    obtain ⟨slot, inside, holds, _⟩ := tracked.placed other (Finset.mem_of_mem_erase stays)
    rw [slots] at inside
    refine ⟨slot, inside, holds, ?_⟩
    rintro ⟨_, waits⟩
    exact Finset.ne_of_mem_erase stays (holds.symm.trans waits)
  · intro other stays
    exact tracked.positive other (Finset.mem_of_mem_erase stays)
  · obtain ⟨slot, inside, holds, _⟩ := tracked.placed pid member
    have one : matching parent.childTable pid (clampChild numChild) 0 = 1 := by
      refine matching_unique (slots ▸ inside) holds ?_
      intro other small same
      exact tracked.distinct other slot (slots ▸ small) inside (same.trans holds.symm)
    change (parent.running.erase pid).card + zeros +
      matching parent.childTable pid (clampChild numChild) 0 = clampChild numChild
    rw [one, Finset.card_erase_of_mem member]
    omega
  · rintro _ _ ⟨rfl, rfl⟩
    exact ⟨unclamped, Nat.zero_le _⟩

theorem reported
    (tracked : Tracked numChild zeros parent) {pid : Int} {report : Report}
    (place : parent.control = .wait) (member : pid ∈ parent.running)
    (terminates : report.terminates = true)
    (unclamped : 0 < report.status → Unclamped numChild) :
    Tracked numChild (zeros + (Event.reported pid report).zeroExit)
      (parent.reported pid report) := by
  by_cases bad : 0 < report.status
  · simp only [Parent.reported, Event.zeroExit, if_pos terminates, if_pos bad]
    exact tracked.badExit place member (unclamped bad)
  · simp only [Parent.reported, Event.zeroExit, if_pos terminates, if_neg bad]
    exact tracked.zeroExit place member

theorem forked
    (tracked : Tracked numChild zeros parent.settle) {caller : Caller} {index : Nat} {pid : Int}
    (allowed : parent.mayFork (some pid) = true)
    (site : parent.forkSite numChild = some (caller, index))
    (fresh : ∀ slot, slot ≠ index → parent.childTable slot ≠ pid) :
    Tracked numChild zeros (parent.forked caller index (some pid)).settle := by
  obtain ⟨positive, new⟩ := of_decide_eq_true allowed
  unfold Parent.forkSite at site
  cases place : parent.control with
  | create i =>
      simp only [place] at site
      obtain ⟨inside, same⟩ := Option.ite_none_right_eq_some.mp site
      obtain ⟨rfl, rfl⟩ := Prod.mk.inj (Option.some.inj same)
      simp only [Parent.settle, place] at tracked
      exact tracked.forkCreate place inside positive new fresh
  | handle ended i =>
      simp only [place] at site
      obtain ⟨⟨inside, found⟩, same⟩ := Option.ite_none_right_eq_some.mp site
      obtain ⟨rfl, rfl⟩ := Prod.mk.inj (Option.some.inj same)
      simp only [Parent.settle, place] at tracked
      exact tracked.forkHandle place inside found positive new fresh
  | store _ _ _ => simp [place] at site
  | wait => simp [place] at site
  | stopped => simp [place] at site

theorem step
    (tracked : Tracked numChild zeros parent.settle) (stepped : Stepped numChild parent event after)
    (regular : Regular numChild parent event) :
    Tracked numChild (zeros + event.zeroExit) after.settle := by
  cases stepped with
  | created i place ended =>
      simp only [Parent.settle, place] at tracked
      exact tracked.created place ended
  | stored caller index pid place =>
      simp only [Parent.settle, place] at tracked
      cases caller with
      | createMultipleChild => exact tracked
      | handleChildExit pid => exact tracked
  | drained place _ =>
      simp only [Parent.settle, place] at tracked
      exact tracked.stopped place
  | skipped pid i place inside different =>
      simp only [Parent.settle, place] at tracked
      exact tracked.skipped place inside different
  | handled pid i place ended =>
      simp only [Parent.settle, place] at tracked
      exact tracked.handled place ended
  | forked result caller index allowed site =>
      cases result with
      | none => exact regular.elim
      | some pid => exact tracked.forked allowed site (regular caller index site)
  | interrupted _ => exact tracked
  | waitError waiting =>
      have place := (of_decide_eq_true waiting).1
      simp only [Parent.settle, place] at tracked
      exact tracked.stopped place
  | reported pid report waiting member =>
      have place := (of_decide_eq_true waiting).1
      have after := tracked
      simp only [Parent.settle, place] at after
      have done := after.reported place member regular.1 regular.2
      have settled : (parent.reported pid report).settle = parent.reported pid report := by
        unfold Parent.reported Parent.settle
        by_cases bad : 0 < report.status
        · simp only [if_pos bad]
        · simp only [if_neg bad, place]
      rw [settled]
      exact done
  | signal => exact tracked

end Tracked

theorem tracked_of_regularRun
    {numChild : Int} {history : List Event} {parent : Parent}
    (run : RegularRun numChild history parent) :
    Tracked numChild (zeroExits history) parent.settle := by
  refine Trace.invariant
    (fun history parent => Tracked numChild (zeroExits history) parent.settle) ?_ ?_ run
  · rintro state rfl
    exact Tracked.initial numChild
  · rintro history state event after tracked ⟨stepped, regular⟩
    have next := tracked.step (stepped_of_step stepped) regular
    rwa [Nat.add_comm] at next

/-- In regular runs the counter is right whenever the parent is at the head of
the loop of `wait_for_child`. -/
theorem count_eq_running
    {numChild : Int} {history : List Event} {parent : Parent}
    (run : RegularRun numChild history parent) (head : parent.control = .wait) :
    parent.activeChildCount = parent.running.card := by
  have tracked := tracked_of_regularRun run
  simp only [Parent.settle, head] at tracked
  have size := tracked.size_of_wait head
  have count := tracked.count
  rw [Tracked.slots_of_wait numChild head, ← size] at count
  omega

theorem count_eq_running_one_child :
    ∃ parent, RegularRun 1 [.advance, .advance, .forked (some 100)] parent ∧
      parent.control = .wait ∧ parent.activeChildCount = parent.running.card := by
  have started : RegularRun 1 [.forked (some 100)] _ :=
    .next (.start rfl) ⟨rfl, fun _ _ _ _ _ => (by decide : (0 : Int) ≠ 100)⟩
  have stored : RegularRun 1 [.advance, .forked (some 100)] _ := .next started ⟨rfl, trivial⟩
  have waits : RegularRun 1 [.advance, .advance, .forked (some 100)] _ :=
    .next stored ⟨rfl, trivial⟩
  exact ⟨_, waits, rfl, count_eq_running waits rfl⟩

/-- The only fork of the parent fails, and `create_multiple_child` counts it. -/
theorem failed_fork_counted :
    ∃ parent, Run 0 [.advance, .advance, .forked none] parent ∧
      parent.control = .wait ∧ parent.activeChildCount ≠ parent.running.card := by
  have failed : Run 0 [.forked none] _ := .next (.start rfl) rfl
  have stored : Run 0 [.advance, .forked none] _ := .next failed rfl
  have waits : Run 0 [.advance, .advance, .forked none] _ := .next stored rfl
  exact ⟨_, waits, rfl, by decide⟩

end Supervisor

end Tpt
