import Mathlib.Logic.Function.Basic
import Mathlib.Tactic

/-!
Edge-triggered notification.

A set of watched sources has a ready list.  A source enters it when its level
may have risen, and leaves it when it is reported, whether or not its level
falls afterwards.  A program that handles every report until the level of its
source is off loses no source: `Covered` is its invariant, and there is one
rule for each operation.
-/

namespace Tpt

universe u

/-- The sources watched, each with the data its reports carry, and those on
the ready list. -/
structure EdgeSet (Source : Type u) where
  data : Source → Option Nat
  ready : Source → Bool

namespace EdgeSet

variable {Source : Type u} [DecidableEq Source]

def empty : EdgeSet Source :=
  { data := fun _ => none, ready := fun _ => false }

/-- The level of a source may have risen. -/
def notify (set : EdgeSet Source) (source : Source) : EdgeSet Source :=
  { data := set.data
    ready := Function.update set.ready source
      (set.ready source || (set.data source).isSome) }

def add (set : EdgeSet Source) (source : Source) (value : Nat) (raised : Bool) :
    EdgeSet Source :=
  { data := Function.update set.data source (some value)
    ready := Function.update set.ready source raised }

def remove (set : EdgeSet Source) (source : Source) : EdgeSet Source :=
  { data := Function.update set.data source none
    ready := Function.update set.ready source false }

def scan (set : EdgeSet Source) (scanned : List Source) : EdgeSet Source :=
  { set with ready := fun source => set.ready source && !decide (source ∈ scanned) }

@[simp]
theorem notify_data (set : EdgeSet Source) (source : Source) :
    (set.notify source).data = set.data := rfl

@[simp]
theorem scan_data (set : EdgeSet Source) (scanned : List Source) :
    (set.scan scanned).data = set.data := rfl

@[simp]
theorem add_data_self (set : EdgeSet Source) (source : Source) (value : Nat) (raised : Bool) :
    (set.add source value raised).data source = some value :=
  Function.update_self source _ set.data

@[simp]
theorem add_ready_self (set : EdgeSet Source) (source : Source) (value : Nat) (raised : Bool) :
    (set.add source value raised).ready source = raised :=
  Function.update_self source _ set.ready

@[simp]
theorem remove_data_self (set : EdgeSet Source) (source : Source) :
    (set.remove source).data source = none :=
  Function.update_self source _ set.data

@[simp]
theorem remove_ready_self (set : EdgeSet Source) (source : Source) :
    (set.remove source).ready source = false :=
  Function.update_self source _ set.ready

section Others

variable {set : EdgeSet Source} {source other : Source} (different : other ≠ source)

include different

theorem add_data_of_ne (value : Nat) (raised : Bool) :
    (set.add source value raised).data other = set.data other :=
  Function.update_of_ne different _ set.data

theorem add_ready_of_ne (value : Nat) (raised : Bool) :
    (set.add source value raised).ready other = set.ready other :=
  Function.update_of_ne different _ set.ready

theorem remove_data_of_ne : (set.remove source).data other = set.data other :=
  Function.update_of_ne different _ set.data

theorem remove_ready_of_ne : (set.remove source).ready other = set.ready other :=
  Function.update_of_ne different _ set.ready

end Others

theorem ready_notify
    {set : EdgeSet Source} {source other : Source}
    (ready : set.ready other = true) : (set.notify source).ready other = true := by
  by_cases same : other = source
  · subst same
    simp [notify, ready]
  · simp [notify, Function.update_of_ne same, ready]

/-- A watched source whose level is on is on the ready list, or its report is
still to be handled. -/
def Covered (set : EdgeSet Source) (level : Source → Bool) (pending : List Source) : Prop :=
  ∀ source, (set.data source).isSome = true → level source = true →
    set.ready source = true ∨ source ∈ pending

namespace Covered

variable {set : EdgeSet Source} {level after : Source → Bool} {pending : List Source}
variable {source : Source}

theorem raise
    (covered : set.Covered level pending)
    (others : ∀ other, other ≠ source → after other = true → level other = true) :
    (set.notify source).Covered after pending := by
  intro other watched raised
  by_cases same : other = source
  · subst same
    have isWatched : (set.data other).isSome = true := watched
    simp [notify, isWatched]
  · exact (covered other watched (others other same raised)).imp ready_notify id

omit [DecidableEq Source] in
theorem lower
    (covered : set.Covered level pending)
    (lower : ∀ other, after other = true → level other = true) :
    set.Covered after pending :=
  fun other watched raised => covered other watched (lower other raised)

/-- Sources are taken off the ready list, and those with their level on are
reported. -/
theorem scan
    {scanned reported : List Source}
    (covered : set.Covered level pending)
    (reports : ∀ source ∈ scanned, (set.data source).isSome = true → level source = true →
      source ∈ reported) :
    (set.scan scanned).Covered level (reported ++ pending) := by
  intro source watched raised
  rw [List.mem_append]
  by_cases taken : source ∈ scanned
  · exact .inr (.inl (reports source taken watched raised))
  · rcases covered source watched raised with ready | waiting
    · apply Or.inl
      simp [EdgeSet.scan, ready, taken]
    · exact .inr (.inr waiting)

omit [DecidableEq Source] in
/-- A report is handled until the level is off. -/
theorem handled
    (covered : set.Covered level (source :: pending))
    (off : level source = false) : set.Covered level pending := by
  intro other watched raised
  rcases covered other watched raised with ready | waiting
  · exact .inl ready
  · rcases List.mem_cons.mp waiting with same | later
    · rw [same, off] at raised
      contradiction
    · exact .inr later

theorem remove
    (covered : set.Covered level (source :: pending)) :
    (set.remove source).Covered level pending := by
  intro other watched raised
  by_cases same : other = source
  · rw [same, remove_data_self] at watched
    contradiction
  · rw [remove_data_of_ne same] at watched
    rcases covered other watched raised with ready | waiting
    · apply Or.inl
      rwa [remove_ready_of_ne same]
    · exact .inr ((List.mem_cons.mp waiting).resolve_left same)

theorem add
    (covered : set.Covered level pending) (value : Nat) :
    (set.add source value (level source)).Covered level pending := by
  intro other watched raised
  by_cases same : other = source
  · apply Or.inl
    rw [same] at raised ⊢
    rw [add_ready_self, raised]
  · rw [add_data_of_ne same] at watched
    rcases covered other watched raised with ready | waiting
    · apply Or.inl
      rwa [add_ready_of_ne same]
    · exact .inr waiting

end Covered

end EdgeSet

end Tpt
