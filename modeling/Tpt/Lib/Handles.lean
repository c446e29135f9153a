import Tpt.Lib.Locals

/-!
A ledger of handles that threads obtain and destroy.

Handles are numbered in the order in which they are obtained.  `Kept` says that
every handle obtained is held by one thread and not destroyed, or was destroyed
once.
-/

namespace Tpt

universe u

structure Handles where
  made : Nat
  destroys : Nat → Nat

namespace Handles

def empty : Handles := { made := 0, destroys := fun _ => 0 }

def obtain (handles : Handles) : Handles := { handles with made := handles.made + 1 }

def destroy (handles : Handles) (handle : Nat) : Handles :=
  { handles with
    destroys := Function.update handles.destroys handle (handles.destroys handle + 1) }

/-- At most one handle was obtained, and it was destroyed again. -/
def Passing (handles after : Handles) : Prop :=
  after = handles ∨ after = handles.obtain.destroy handles.made

theorem destroy_ne_zero
    {handles : Handles} {handle : Nat} (other : Nat) (destroyed : handles.destroys handle ≠ 0) :
    (handles.destroy other).destroys handle ≠ 0 := by
  by_cases same : handle = other
  · subst same
    exact (Function.update_self ..).trans_ne (Nat.succ_ne_zero _)
  · exact (Function.update_of_ne same _ _).trans_ne destroyed

theorem Passing.ne_zero
    {handles after : Handles} {handle : Nat} (passing : Passing handles after)
    (destroyed : handles.destroys handle ≠ 0) : after.destroys handle ≠ 0 := by
  rcases passing with rfl | rfl
  · exact destroyed
  · exact @destroy_ne_zero handles.obtain handle handles.made destroyed

/-- Every handle obtained is held by one thread or was destroyed once. -/
structure Kept {Thread : Type u} (handles : Handles) (holds : Thread → Option Nat) : Prop where
  live : ∀ thread handle, holds thread = some handle →
    handle < handles.made ∧ handles.destroys handle = 0
  single : ∀ thread other handle, holds thread = some handle → holds other = some handle →
    thread = other
  once : ∀ handle, handle < handles.made →
    (∃ thread, holds thread = some handle) ∨ handles.destroys handle = 1
  unmade : ∀ handle, handles.made ≤ handle → handles.destroys handle = 0

namespace Kept

variable {Thread : Type u} {handles : Handles} {holds : Thread → Option Nat}

theorem start : Kept empty (fun _ : Thread => none) :=
  ⟨nofun, nofun, nofun, fun _ _ => rfl⟩

variable [DecidableEq Thread] {thread : Thread}

theorem obtain
    (kept : Kept handles holds) (nothing : holds thread = none) :
    Kept handles.obtain (Function.update holds thread (some handles.made)) where
  live other handle found := by
    rcases update_cases found with ⟨_, new⟩ | ⟨_, found⟩
    · obtain rfl := Option.some.inj new
      exact ⟨Nat.lt_succ_self _, kept.unmade _ (le_refl _)⟩
    · obtain ⟨made, undestroyed⟩ := kept.live other handle found
      exact ⟨Nat.lt_succ_of_lt made, undestroyed⟩
  single first second handle found found' := by
    have older : ∀ {other}, holds other = some handle → handle ≠ handles.made :=
      fun held => Nat.ne_of_lt (kept.live _ _ held).1
    rcases update_cases found with ⟨rfl, new⟩ | ⟨_, held⟩
    · rcases update_cases found' with ⟨rfl, _⟩ | ⟨_, held'⟩
      · rfl
      · exact absurd (Option.some.inj new).symm (older held')
    · rcases update_cases found' with ⟨_, new⟩ | ⟨_, held'⟩
      · exact absurd (Option.some.inj new).symm (older held)
      · exact kept.single first second handle held held'
  once handle made := by
    rcases Nat.lt_succ_iff_lt_or_eq.mp made with earlier | rfl
    · rcases kept.once handle earlier with ⟨other, found⟩ | destroyed
      · have different : other ≠ thread := by
          rintro rfl
          cases nothing.symm.trans found
        exact .inl ⟨other, (Function.update_of_ne different _ _).trans found⟩
      · exact .inr destroyed
    · exact .inl ⟨thread, Function.update_self ..⟩
  unmade handle later := kept.unmade handle (Nat.le_of_succ_le later)

theorem destroy
    {handle : Nat} (kept : Kept handles holds) (held : holds thread = some handle) :
    Kept (handles.destroy handle) (Function.update holds thread none) := by
  obtain ⟨made, undestroyed⟩ := kept.live thread handle held
  have keeps : ∀ {other found}, Function.update holds thread none other = some found →
      holds other = some found ∧ found ≠ handle := by
    intro other found lookup
    rcases update_cases lookup with ⟨_, new⟩ | ⟨different, before⟩
    · cases new
    · refine ⟨before, ?_⟩
      rintro rfl
      exact different (kept.single other thread found before held)
  constructor
  case live =>
    intro other found lookup
    obtain ⟨before, different⟩ := keeps lookup
    obtain ⟨made, undestroyed⟩ := kept.live other found before
    exact ⟨made, (Function.update_of_ne different _ _).trans undestroyed⟩
  case single =>
    intro first second found lookup lookup'
    exact kept.single first second found (keeps lookup).1 (keeps lookup').1
  case once =>
    intro found earlier
    by_cases same : found = handle
    · subst same
      refine .inr ((Function.update_self ..).trans ?_)
      rw [undestroyed]
    · rcases kept.once found earlier with ⟨other, before⟩ | destroyed
      · have different : other ≠ thread := by
          rintro rfl
          exact same (Option.some.inj (before.symm.trans held))
        exact .inl ⟨other, (Function.update_of_ne different _ _).trans before⟩
      · exact .inr ((Function.update_of_ne same _ _).trans destroyed)
  case unmade =>
    intro found later
    have different : found ≠ handle := Nat.ne_of_gt (made.trans_le later)
    exact (Function.update_of_ne different _ _).trans (kept.unmade found later)

theorem obtain_destroy (kept : Kept handles holds) (nothing : holds thread = none) :
    Kept (handles.obtain.destroy handles.made) holds := by
  have held : Function.update holds thread (some handles.made) thread = some handles.made :=
    Function.update_self ..
  have destroyed := (kept.obtain nothing).destroy held
  rwa [Function.update_idem, ← nothing, Function.update_eq_self] at destroyed

theorem passing
    {after : Handles} (kept : Kept handles holds) (nothing : holds thread = none)
    (passing : Passing handles after) : Kept after holds := by
  rcases passing with rfl | rfl
  · exact kept
  · exact kept.obtain_destroy nothing

omit [DecidableEq Thread] in
theorem live_iff (kept : Kept handles holds) (handle : Nat) :
    handle < handles.made ∧ handles.destroys handle = 0 ↔
      ∃ thread, holds thread = some handle := by
  constructor
  · rintro ⟨made, undestroyed⟩
    rcases kept.once handle made with found | destroyed
    · exact found
    · cases undestroyed.symm.trans destroyed
  · rintro ⟨thread, found⟩
    exact kept.live thread handle found

omit [DecidableEq Thread] in
theorem destroys_le_one (kept : Kept handles holds) (handle : Nat) :
    handles.destroys handle ≤ 1 := by
  by_cases made : handle < handles.made
  · rcases kept.once handle made with ⟨thread, found⟩ | destroyed
    · rw [(kept.live thread handle found).2]
      exact Nat.zero_le 1
    · exact destroyed.le
  · rw [kept.unmade handle (Nat.le_of_not_lt made)]
    exact Nat.zero_le 1

end Kept

end Handles

end Tpt
