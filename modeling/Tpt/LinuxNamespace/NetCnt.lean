import Tpt.Lib.Locals
import Tpt.Lib.Trace

/-!
The network counter, `parent_get_netcnt` of `parent.c`.

Processes call the function any number of times.  A call opens the count file,
reads it, writes it and returns; the file is not locked, and the first call on
a file without a count stores the value that it returns.
-/

namespace Tpt

namespace LinuxNamespace

universe u

inductive CountFile where
  | missing
  | empty
  | count (cnt : UInt32)
  deriving DecidableEq

/-- `open` with `O_CREAT`. -/
def CountFile.opened : CountFile → CountFile
  | .missing => .empty
  | file => file

/-- Where a call stands: before its `read`, before its `write`, or before it
returns. -/
inductive Place where
  | idle
  | read
  | write (ret : Int32) (cnt : UInt32)
  | close (ret : Int32)
  deriving DecidableEq

def Place.ret : Place → Option Int32
  | .write ret _ => some ret
  | .close ret => some ret
  | _ => none

def Place.writes : Place → Bool
  | .write _ _ => true
  | _ => false

/-- The file and the processes; `firstUse` says that the count in the file was
stored for a file without one, and `reads` counts the reads. -/
structure System (Process : Type u) where
  file : CountFile
  places : Process → Place
  returned : List Int32
  firstUse : Bool
  reads : Nat

/-- What a call does with what it read: the value that it returns and the one
that it stores. -/
def nextCount : CountFile → Int32 × UInt32
  | .count cnt => (cnt.toInt32, cnt + 1)
  | _ => (2, 2)

variable {Process : Type u} [DecidableEq Process]

def System.goto (system : System Process) (process : Process) (place : Place) : System Process :=
  { system with places := Function.update system.places process place }

def parentGetNetcnt (system : System Process) (process : Process) : System Process :=
  match system.places process with
  | .idle => { system with file := system.file.opened }.goto process .read
  | .read =>
      let (ret, cnt) := nextCount system.file
      { system with reads := system.reads + 1 }.goto process (.write ret cnt)
  | .write ret cnt =>
      { system with file := .count cnt, firstUse := decide (ret = cnt.toInt32) }.goto process
        (.close ret)
  | .close ret => { system with returned := ret :: system.returned }.goto process .idle

def Initial (system : System Process) : Prop :=
  (∀ process, system.places process = .idle) ∧ system.returned = [] ∧
    system.firstUse = false ∧ system.reads = 0

def CountRun : List Process → System Process → Prop :=
  Trace Initial fun system process after => parentGetNetcnt system process = after

/-- A read is not made between the read and the write of another call, nor of
the count that the first call on the file stored, nor after `2 ^ 32` others. -/
def Careful (system : System Process) (process : Process) : Prop :=
  system.places process = .read →
    (∀ other, (system.places other).writes = false) ∧ system.firstUse = false ∧
      system.reads < 2 ^ 32

instance [Fintype Process] (system : System Process) (process : Process) :
    Decidable (Careful system process) := inferInstanceAs (Decidable (_ → _))

def CarefulRun : List Process → System Process → Prop :=
  Trace Initial fun system process after =>
    parentGetNetcnt system process = after ∧ Careful system process

def Given (places : Process → Place) (returned : List Int32) (ret : Int32) : Prop :=
  ret ∈ returned ∨ ∃ process, (places process).ret = some ret

/-- The calls give values that differ from each other. -/
structure Distinct (places : Process → Place) (returned : List Int32) : Prop where
  nodup : returned.Nodup
  unreturned : ∀ process ret, (places process).ret = some ret → ret ∉ returned
  single : ∀ process other ret, (places process).ret = some ret →
    (places other).ret = some ret → process = other

section Distinct

variable {places : Process → Place} {returned : List Int32} {process : Process} {place : Place}
  {ret : Int32}

theorem ret_update
    {other : Process}
    (lookup : (Function.update places process place other).ret = some ret) :
    (other = process ∧ place.ret = some ret) ∨
      (other ≠ process ∧ (places other).ret = some ret) := by
  by_cases same : other = process
  · subst same
    rw [Function.update_self] at lookup
    exact .inl ⟨rfl, lookup⟩
  · rw [Function.update_of_ne same] at lookup
    exact .inr ⟨same, lookup⟩

theorem Distinct.give
    (distinct : Distinct places returned)
    (new : ∀ ret, place.ret = some ret →
      (places process).ret = some ret ∨ ¬ Given places returned ret) :
    Distinct (Function.update places process place) returned where
  nodup := distinct.nodup
  unreturned other ret lookup := by
    rcases ret_update lookup with ⟨_, mine⟩ | ⟨_, before⟩
    · rcases new ret mine with kept | fresh
      · exact distinct.unreturned process ret kept
      · exact fun member => fresh (.inl member)
    · exact distinct.unreturned other ret before
  single first second ret lookup lookup' := by
    have alone : ∀ other, other ≠ process → place.ret = some ret →
        (places other).ret = some ret → False := by
      intro other different mine found
      rcases new ret mine with kept | fresh
      · exact different (distinct.single other process ret found kept)
      · exact fresh (.inr ⟨other, found⟩)
    rcases ret_update lookup with ⟨rfl, mine⟩ | ⟨different, before⟩
    · rcases ret_update lookup' with ⟨rfl, _⟩ | ⟨different, before⟩
      · rfl
      · exact (alone second different mine before).elim
    · rcases ret_update lookup' with ⟨rfl, mine⟩ | ⟨_, before'⟩
      · exact (alone first different mine before).elim
      · exact distinct.single first second ret before before'

theorem Distinct.return
    (distinct : Distinct places returned) (gives : (places process).ret = some ret)
    (done : place.ret = none) :
    Distinct (Function.update places process place) (ret :: returned) where
  nodup := List.nodup_cons.mpr ⟨distinct.unreturned process ret gives, distinct.nodup⟩
  unreturned other ret' lookup := by
    rcases ret_update lookup with ⟨_, mine⟩ | ⟨different, before⟩
    · cases done.symm.trans mine
    · rw [List.mem_cons, not_or]
      refine ⟨?_, distinct.unreturned other ret' before⟩
      rintro rfl
      exact different (distinct.single other process ret' before gives)
  single first second ret' lookup lookup' := by
    rcases ret_update lookup with ⟨_, mine⟩ | ⟨_, before⟩
    · cases done.symm.trans mine
    · rcases ret_update lookup' with ⟨_, mine⟩ | ⟨_, before'⟩
      · cases done.symm.trans mine
      · exact distinct.single first second ret' before before'

end Distinct

def Quiet (places : Process → Place) : Prop := ∀ process, (places process).writes = false

/-- The values so far are the counts from a base on, and the next one is theirs. -/
structure Counted (system : System Process) (base : UInt32) : Prop where
  given : ∀ ret, Given system.places system.returned ret →
    ∃ i < system.reads, ret = (base + UInt32.ofNat i).toInt32
  current : ∀ cnt, system.file = .count cnt → system.firstUse = false → Quiet system.places →
    cnt = base + UInt32.ofNat system.reads
  writer : ∀ process ret cnt, system.places process = .write ret cnt →
    (∀ other, other ≠ process → (system.places other).writes = false) ∧
      (ret = cnt.toInt32 ∨ cnt = base + UInt32.ofNat system.reads)
  short : (∀ cnt, system.file ≠ .count cnt) → system.returned = [] ∧
    (∀ process ret, system.places process ≠ .close ret) ∧ (Quiet system.places → system.reads = 0)

structure Inv (system : System Process) : Prop where
  distinct : Distinct system.places system.returned
  counted : ∃ base, Counted system base

theorem count_injective
    {base : UInt32} {i j : Nat} (smaller : i < 2 ^ 32) (small : j < 2 ^ 32)
    (same : (base + UInt32.ofNat i).toInt32 = (base + UInt32.ofNat j).toInt32) : i = j := by
  have sums : base + UInt32.ofNat i = base + UInt32.ofNat j := by
    have back := congrArg Int32.toUInt32 same
    rwa [UInt32.toUInt32_toInt32, UInt32.toUInt32_toInt32] at back
  have numbers := congrArg UInt32.toNat (UInt32.add_right_inj base |>.mp sums)
  rwa [UInt32.toNat_ofNat_of_lt' smaller, UInt32.toNat_ofNat_of_lt' small] at numbers

section Steps

variable {system after : System Process} {process : Process} {history : List Process}

theorem given_update
    {places : Process → Place} {returned : List Int32} {place : Place} {ret : Int32}
    (mine : ∀ ret, place.ret = some ret → Given places returned ret)
    (given : Given (Function.update places process place) returned ret) :
    Given places returned ret := by
  rcases given with member | ⟨other, lookup⟩
  · exact .inl member
  · rcases ret_update lookup with ⟨_, gives⟩ | ⟨_, before⟩
    · exact mine ret gives
    · exact .inr ⟨other, before⟩

theorem quiet_update
    {places : Process → Place} {place : Place} (before : (places process).writes = false)
    (quiet : Quiet (Function.update places process place)) : Quiet places := by
  intro other
  by_cases same : other = process
  · rw [same]
    exact before
  · rw [← Function.update_of_ne same place places]
    exact quiet other

theorem Counted.moves
    {base : UInt32} {place : Place} {file : CountFile} {returned : List Int32}
    (counted : Counted system base) (before : (system.places process).writes = false)
    (now : place.writes = false)
    (same : ∀ cnt, file = .count cnt ↔ system.file = .count cnt)
    (given : ∀ ret, Given (Function.update system.places process place) returned ret →
      Given system.places system.returned ret)
    (short : (∀ cnt, system.file ≠ .count cnt) → returned = [] ∧ ∀ ret, place ≠ .close ret) :
    Counted ({ system with file, returned }.goto process place) base where
  given ret found := counted.given ret (given ret found)
  current cnt found current quiet :=
    counted.current cnt ((same cnt).mp found) current (quiet_update before quiet)
  writer other ret cnt lookup := by
    rcases update_cases lookup with ⟨_, mine⟩ | ⟨different, earlier⟩
    · rw [mine] at now
      cases now
    · obtain ⟨alone, next⟩ := counted.writer other ret cnt earlier
      refine ⟨fun third apart => ?_, next⟩
      rcases update_cases (rfl : Function.update system.places process place third = _) with
        ⟨_, mine⟩ | ⟨_, kept⟩
      · exact (congrArg Place.writes mine.symm).trans now
      · exact (congrArg Place.writes kept.symm).trans (alone third apart)
  short missing := by
    have none : ∀ cnt, system.file ≠ .count cnt := fun cnt found =>
      missing cnt ((same cnt).mpr found)
    obtain ⟨_, closing, unread⟩ := counted.short none
    obtain ⟨empty, notClosing⟩ := short none
    refine ⟨empty, ?_, fun quiet => unread (quiet_update before quiet)⟩
    intro other ret lookup
    rcases update_cases lookup with ⟨_, mine⟩ | ⟨_, earlier⟩
    · exact notClosing ret mine
    · exact closing other ret earlier

theorem opened_count (file : CountFile) (cnt : UInt32) :
    file.opened = .count cnt ↔ file = .count cnt := by
  cases file <;> simp [CountFile.opened]

theorem Inv.opens (inv : Inv system) (place : system.places process = .idle) :
    Inv ({ system with file := system.file.opened }.goto process .read) := by
  obtain ⟨base, counted⟩ := inv.counted
  have gives : ∀ ret, Place.read.ret ≠ some ret := fun _ same => nomatch same
  refine ⟨inv.distinct.give fun ret same => absurd same (gives ret), base, ?_⟩
  refine counted.moves (by rw [place]; rfl) rfl (opened_count system.file) ?_ ?_
  · exact fun _ found => given_update (fun ret same => absurd same (gives ret)) found
  · exact fun missing => ⟨(counted.short missing).1, nofun⟩

theorem Inv.closes
    {ret : Int32} (inv : Inv system) (place : system.places process = .close ret) :
    Inv ({ system with returned := ret :: system.returned }.goto process .idle) := by
  obtain ⟨base, counted⟩ := inv.counted
  have gives : (system.places process).ret = some ret := by rw [place]; rfl
  refine ⟨inv.distinct.return gives rfl, base, ?_⟩
  refine counted.moves (by rw [place]; rfl) rfl (fun _ => Iff.rfl) ?_ ?_
  · rintro ret' (member | ⟨other, lookup⟩)
    · rcases List.mem_cons.mp member with rfl | earlier
      · exact .inr ⟨process, gives⟩
      · exact .inl earlier
    · refine given_update (fun ret same => ?_) (.inr ⟨other, lookup⟩)
      cases (same : none = some ret)
  · exact fun missing => absurd place ((counted.short missing).2.1 process ret)

/-- A call reads: it is alone between its read and its write, its value is the
next one, and it stores the one after it unless it stores its own. -/
theorem Counted.reads
    {base cnt : UInt32} {ret : Int32} (counted : Counted system base)
    (quiet : Quiet system.places)
    (next : ret = (base + UInt32.ofNat system.reads).toInt32)
    (stores : ret = cnt.toInt32 ∨ cnt = base + UInt32.ofNat (system.reads + 1)) :
    Counted ({ system with reads := system.reads + 1 }.goto process (.write ret cnt)) base where
  given ret' found := by
    rcases found with member | ⟨other, lookup⟩
    · obtain ⟨i, below, same⟩ := counted.given ret' (.inl member)
      exact ⟨i, Nat.lt_succ_of_lt below, same⟩
    · rcases ret_update lookup with ⟨_, mine⟩ | ⟨_, before⟩
      · exact ⟨system.reads, Nat.lt_succ_self _, (Option.some.inj mine).symm.trans next⟩
      · obtain ⟨i, below, same⟩ := counted.given ret' (.inr ⟨other, before⟩)
        exact ⟨i, Nat.lt_succ_of_lt below, same⟩
  current cnt' found current quietAfter := by
    have writing := quietAfter process
    simp only [System.goto, Function.update_self, Place.writes] at writing
    cases writing
  writer other ret' cnt' lookup := by
    rcases update_cases lookup with ⟨rfl, mine⟩ | ⟨_, earlier⟩
    · obtain ⟨rfl, rfl⟩ := Place.write.inj mine
      refine ⟨fun third apart => ?_, stores⟩
      exact (congrArg Place.writes (Function.update_of_ne apart _ _)).trans (quiet third)
    · have writing := quiet other
      rw [earlier] at writing
      cases writing
  short missing := by
    obtain ⟨empty, closing, _⟩ := counted.short missing
    refine ⟨empty, ?_, fun quietAfter => ?_⟩
    · intro other ret' lookup
      rcases update_cases lookup with ⟨_, mine⟩ | ⟨_, earlier⟩
      · cases mine
      · exact closing other ret' earlier
    · have writing := quietAfter process
      simp only [System.goto, Function.update_self, Place.writes] at writing
      cases writing

omit [DecidableEq Process] in
theorem Counted.none_given
    {base : UInt32} (counted : Counted system base) (quiet : Quiet system.places)
    (missing : ∀ cnt, system.file ≠ .count cnt) (ret : Int32) :
    ¬ Given system.places system.returned ret := by
  obtain ⟨empty, closing, _⟩ := counted.short missing
  rintro (member | ⟨other, gives⟩)
  · rw [empty] at member
    cases member
  · cases place : system.places other with
    | write ret' cnt =>
        have writing := quiet other
        rw [place] at writing
        cases writing
    | close ret' => exact closing other ret' place
    | idle =>
        rw [place] at gives
        cases gives
    | read =>
        rw [place] at gives
        cases gives

omit [DecidableEq Process] in
/-- Until the first read, the base is free. -/
theorem Counted.rebase
    {base other : UInt32} (counted : Counted system base) (quiet : Quiet system.places)
    (missing : ∀ cnt, system.file ≠ .count cnt) : Counted system other where
  given ret found := absurd found (counted.none_given quiet missing ret)
  current cnt found := absurd found (missing cnt)
  writer process ret cnt lookup := by
    have writing := quiet process
    rw [lookup] at writing
    cases writing
  short := counted.short

theorem Inv.reads_short
    (inv : Inv system) (quiet : Quiet system.places)
    (missing : ∀ cnt, system.file ≠ .count cnt) :
    Inv ({ system with reads := system.reads + 1 }.goto process (.write 2 2)) := by
  obtain ⟨base, counted⟩ := inv.counted
  have unread : system.reads = 0 := (counted.short missing).2.2 quiet
  refine ⟨inv.distinct.give fun ret _ => .inr (counted.none_given quiet missing ret), 2, ?_⟩
  refine (counted.rebase quiet missing).reads quiet ?_ (.inl rfl)
  rw [unread]
  rfl

theorem Inv.reads_count
    {cnt : UInt32} (inv : Inv system) (quiet : Quiet system.places)
    (current : system.firstUse = false) (few : system.reads < 2 ^ 32)
    (file : system.file = .count cnt) :
    Inv ({ system with reads := system.reads + 1 }.goto process
      (.write cnt.toInt32 (cnt + 1))) := by
  obtain ⟨base, counted⟩ := inv.counted
  have next := counted.current cnt file current quiet
  refine ⟨inv.distinct.give fun ret same => .inr fun given => ?_, base, ?_⟩
  · obtain rfl := Option.some.inj same
    obtain ⟨i, below, earlier⟩ := counted.given _ given
    rw [next] at earlier
    exact Nat.ne_of_lt below (count_injective (below.trans few) few earlier.symm)
  · refine counted.reads quiet (congrArg UInt32.toInt32 next) (.inr ?_)
    rw [next, UInt32.ofNat_add, UInt32.add_assoc]
    rfl

theorem Inv.reads
    (inv : Inv system) (quiet : Quiet system.places) (current : system.firstUse = false)
    (few : system.reads < 2 ^ 32) :
    Inv ({ system with reads := system.reads + 1 }.goto process
      (.write (nextCount system.file).1 (nextCount system.file).2)) := by
  cases file : nextCount system.file with
  | mk ret cnt =>
      by_cases counted : ∃ cnt, system.file = .count cnt
      · obtain ⟨old, found⟩ := counted
        rw [found] at file
        obtain ⟨rfl, rfl⟩ := Prod.mk.inj file
        exact inv.reads_count quiet current few found
      · have missing : ∀ cnt, system.file ≠ .count cnt := not_exists.mp counted
        have short : nextCount system.file = (2, 2) := by
          cases found : system.file with
          | count cnt => exact absurd found (missing cnt)
          | _ => rfl
        obtain ⟨rfl, rfl⟩ := Prod.mk.inj (file.symm.trans short)
        exact inv.reads_short quiet missing

theorem Inv.writes
    {ret : Int32} {cnt : UInt32} (inv : Inv system)
    (place : system.places process = .write ret cnt) :
    Inv ({ system with file := .count cnt, firstUse := decide (ret = cnt.toInt32) }.goto process
      (.close ret)) := by
  obtain ⟨base, counted⟩ := inv.counted
  have gives : (system.places process).ret = some ret := by rw [place]; rfl
  obtain ⟨alone, next⟩ := counted.writer process ret cnt place
  refine ⟨inv.distinct.give ?_, base, ?_, ?_, ?_, ?_⟩
  · intro ret' same
    obtain rfl := Option.some.inj same
    exact .inl gives
  · intro ret' found
    refine counted.given ret' (given_update (fun ret'' same => ?_) found)
    obtain rfl := Option.some.inj same
    exact .inr ⟨process, gives⟩
  · intro cnt' stored later _
    obtain rfl := CountFile.count.inj stored
    exact next.resolve_left (of_decide_eq_false later)
  · intro other ret' cnt' lookup
    rcases update_cases lookup with ⟨_, mine⟩ | ⟨different, earlier⟩
    · cases mine
    · have quiet := alone other different
      rw [earlier] at quiet
      cases quiet
  · exact fun missing => absurd rfl (missing cnt)

theorem Inv.step (inv : Inv system) (careful : Careful system process) :
    Inv (parentGetNetcnt system process) := by
  cases place : system.places process with
  | idle =>
      rw [parentGetNetcnt, place]
      exact inv.opens place
  | read =>
      obtain ⟨quiet, current, few⟩ := careful place
      rw [parentGetNetcnt, place]
      exact inv.reads quiet current few
  | write ret cnt =>
      rw [parentGetNetcnt, place]
      exact inv.writes place
  | close ret =>
      rw [parentGetNetcnt, place]
      exact inv.closes place

omit [DecidableEq Process] in
theorem Inv.start (initial : Initial system) : Inv system := by
  obtain ⟨idle, unreturned, current, unread⟩ := initial
  have silent : ∀ process ret, (system.places process).ret ≠ some ret := by
    intro process ret
    rw [idle process]
    exact nofun
  have ungiven : ∀ ret, ¬ Given system.places system.returned ret := by
    rintro ret (member | ⟨process, gives⟩)
    · rw [unreturned] at member
      cases member
    · exact silent process ret gives
  have counted : ∀ base, (∀ cnt, system.file = .count cnt → cnt = base) →
      Counted system base := by
    intro base stored
    refine ⟨fun ret given => absurd given (ungiven ret), ?_, ?_, ?_⟩
    · intro cnt file _ _
      rw [stored cnt file, unread]
      exact (UInt32.add_zero base).symm
    · intro process ret cnt place
      cases (idle process).symm.trans place
    · refine fun _ => ⟨unreturned, ?_, fun _ => unread⟩
      intro process ret place
      cases (idle process).symm.trans place
  refine ⟨⟨?_, ?_, ?_⟩, ?_⟩
  · rw [unreturned]
    exact List.nodup_nil
  · exact fun process ret gives => absurd gives (silent process ret)
  · exact fun process _ ret gives => absurd gives (silent process ret)
  · cases file : system.file with
    | count cnt => exact ⟨cnt, counted cnt fun _ same => CountFile.count.inj (same.symm.trans file)⟩
    | _ => exact ⟨0, counted 0 fun _ same => nomatch file.symm.trans same⟩

/-- The calls of a careful run return values that differ from each other. -/
theorem careful_counts_distinct (run : CarefulRun history system) : system.returned.Nodup := by
  have inv : Inv system := by
    refine Trace.invariant (fun _ system => Inv system) .start ?_ run
    intro history before process after inv stepped
    obtain ⟨rfl, careful⟩ := stepped
    exact inv.step careful
  exact inv.distinct.nodup

end Steps

def startOf (file : CountFile) : System Bool := ⟨file, fun _ => .idle, [], false, 0⟩

def stepsFrom (file : CountFile) (history : List Bool) : System Bool :=
  history.foldr (fun process system => parentGetNetcnt system process) (startOf file)

theorem countRun_stepsFrom (file : CountFile) (history : List Bool) :
    CountRun history (stepsFrom file history) := by
  induction history with
  | nil => exact .start ⟨fun _ => rfl, rfl, rfl, rfl⟩
  | cons process history inductionHypothesis => exact .next inductionHypothesis rfl

theorem carefulRun_cons
    {file : CountFile} {process : Bool} {history : List Bool}
    (careful : Careful (stepsFrom file history) process)
    (run : CarefulRun history (stepsFrom file history)) :
    CarefulRun (process :: history) (stepsFrom file (process :: history)) :=
  .next run ⟨rfl, careful⟩

/-- Two calls, one after the other, on a file with a count. -/
theorem careful_counts_distinct_two_calls :
    (stepsFrom (.count 5) (List.replicate 8 true)).returned.Nodup := by
  have start : CarefulRun [] (stepsFrom (.count 5) []) := .start ⟨fun _ => rfl, rfl, rfl, rfl⟩
  have firstRead : CarefulRun [true, true] (stepsFrom (.count 5) [true, true]) :=
    carefulRun_cons (by decide) (carefulRun_cons (by decide) start)
  have firstCall : CarefulRun (List.replicate 4 true) (stepsFrom (.count 5) _) :=
    carefulRun_cons (by decide) (carefulRun_cons (by decide) firstRead)
  have secondRead : CarefulRun (List.replicate 6 true) (stepsFrom (.count 5) _) :=
    carefulRun_cons (by decide) (carefulRun_cons (by decide) firstCall)
  have secondCall : CarefulRun (List.replicate 8 true) (stepsFrom (.count 5) _) :=
    carefulRun_cons (by decide) (carefulRun_cons (by decide) secondRead)
  exact careful_counts_distinct secondCall

/-- Two calls, one after the other, on a missing file; and two that overlap on
a file with a count. -/
theorem counts_repeat :
    (CountRun (List.replicate 8 true) (stepsFrom .missing (List.replicate 8 true)) ∧
        ¬ (stepsFrom .missing (List.replicate 8 true)).returned.Nodup) ∧
      CountRun [false, true, false, true, false, true, false, true]
          (stepsFrom (.count 5) [false, true, false, true, false, true, false, true]) ∧
        ¬ (stepsFrom (.count 5)
          [false, true, false, true, false, true, false, true]).returned.Nodup :=
  ⟨⟨countRun_stepsFrom _ _, by decide⟩, countRun_stepsFrom _ _, by decide⟩

end LinuxNamespace

end Tpt
