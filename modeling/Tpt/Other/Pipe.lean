import Mathlib.Tactic
import Tpt.Lib.Progress

/-!
`pipe.c`: a parent that writes its argument into a pipe, and a child that
copies the pipe to standard output byte by byte.  Of standard output the model
has what the child copies there, not the two lines that the processes print.

The pipe holds a bounded number of bytes.  A read of the empty pipe waits while
a process has the write end open, and a write that no process can read kills
the writer.  No call fails otherwise, and standard output takes every byte.
-/

namespace Tpt

namespace Pipe

structure Ends where
  read : Bool
  write : Bool
  deriving DecidableEq

inductive Parent where
  | start
  | write (rest : List UInt8)
  | wait
  | exited
  | killed
  deriving DecidableEq

inductive Child where
  | start
  | read
  | write (buf : UInt8)
  | newline
  | close
  | exited
  deriving DecidableEq

/-- `childOut` is what the child writes to descriptor 1 itself; the line that each
process prints through `printf` when it starts is not in it. -/
structure System where
  parent : Parent
  parentEnds : Ends
  child : Child
  childEnds : Ends
  pipe : List UInt8
  childOut : List UInt8

def System.readers (system : System) : Bool := system.parentEnds.read || system.childEnds.read

def System.writers (system : System) : Bool := system.parentEnds.write || system.childEnds.write

inductive Event where
  | parentCloseRead
  | parentWrite
  | parentCloseWrite
  | parentKilled
  | parentWait
  | childCloseWrite
  | childRead
  | childEndOfFile
  | childWrite
  | childNewline
  | childCloseRead
  deriving DecidableEq

/-- One step with room for so many bytes, for `argv[1]`. -/
inductive Step (size : Nat) (text : List UInt8) : System → Event → System → Prop where
  | parentCloseRead {system} :
      system.parent = .start →
      Step size text system .parentCloseRead
        { system with
          parent := .write text
          parentEnds := { system.parentEnds with read := false } }
  | parentWrite {system piece rest} :
      system.parent = .write (piece ++ rest) → piece ≠ [] → system.readers = true →
      system.pipe.length + piece.length ≤ size →
      Step size text system .parentWrite
        { system with parent := .write rest, pipe := system.pipe ++ piece }
  | parentCloseWrite {system} :
      system.parent = .write [] →
      Step size text system .parentCloseWrite
        { system with
          parent := .wait
          parentEnds := { system.parentEnds with write := false } }
  | parentKilled {system rest} :
      system.parent = .write rest → rest ≠ [] → system.readers = false →
      Step size text system .parentKilled
        { system with parent := .killed, parentEnds := { read := false, write := false } }
  | parentWait {system} :
      system.parent = .wait → system.child = .exited →
      Step size text system .parentWait { system with parent := .exited }
  | childCloseWrite {system} :
      system.child = .start →
      Step size text system .childCloseWrite
        { system with child := .read, childEnds := { system.childEnds with write := false } }
  | childRead {system buf rest} :
      system.child = .read → system.pipe = buf :: rest →
      Step size text system .childRead { system with child := .write buf, pipe := rest }
  | childEndOfFile {system} :
      system.child = .read → system.pipe = [] → system.writers = false →
      Step size text system .childEndOfFile { system with child := .newline }
  | childWrite {system buf} :
      system.child = .write buf →
      Step size text system .childWrite
        { system with child := .read, childOut := system.childOut ++ [buf] }
  | childNewline {system} :
      system.child = .newline →
      Step size text system .childNewline
        { system with child := .close, childOut := system.childOut ++ [10] }
  | childCloseRead {system} :
      system.child = .close →
      Step size text system .childCloseRead
        { system with child := .exited, childEnds := { system.childEnds with read := false } }

def forked : System where
  parent := .start
  parentEnds := { read := true, write := true }
  child := .start
  childEnds := { read := true, write := true }
  pipe := []
  childOut := []

def PipeRun (size : Nat) (text : List UInt8) : List Event → System → Prop :=
  Trace (fun system => system = forked) (Step size text)

/-! The ends that a process has, and the bytes that it holds, by its place. -/

def Parent.ends : Parent → Ends
  | start => { read := true, write := true }
  | write _ => { read := false, write := true }
  | _ => { read := false, write := false }

def Child.ends : Child → Ends
  | start => { read := true, write := true }
  | exited => { read := false, write := false }
  | _ => { read := true, write := false }

def Parent.unwritten (text : List UInt8) : Parent → List UInt8
  | start => text
  | write rest => rest
  | _ => []

def Child.unprinted : Child → List UInt8
  | write buf => [buf]
  | _ => []

/-- Where the bytes of the text are; once the child is past its loop, all of
them are printed. -/
structure Flows (text : List UInt8) (system : System) : Prop where
  parentEnds : system.parentEnds = system.parent.ends
  childEnds : system.childEnds = system.child.ends
  alive : system.parent ≠ .killed
  copied : ∃ printed, system.childOut = printed ++
      (if system.child = .close ∨ system.child = .exited then [10] else []) ∧
    printed ++ system.child.unprinted ++ system.pipe ++ system.parent.unwritten text = text
  ended : system.child = .newline ∨ system.child = .close ∨ system.child = .exited →
    system.pipe = [] ∧ (system.parent = .wait ∨ system.parent = .exited)
  waited : system.parent = .exited → system.child = .exited

section Runs

variable {size : Nat} {text : List UInt8} {system after : System} {event : Event}
variable {history : List Event}

theorem Flows.start (text : List UInt8) : Flows text forked where
  parentEnds := rfl
  childEnds := rfl
  alive := nofun
  copied := ⟨[], rfl, rfl⟩
  ended := nofun
  waited := nofun

theorem Flows.readers
    (flows : Flows text system) {rest : List UInt8} (writing : system.parent = .write rest) :
    system.readers = true := by
  have ended := flows.ended
  rw [System.readers, flows.childEnds, Bool.or_eq_true]
  right
  cases child : system.child with
  | exited =>
      rcases (ended (.inr (.inr child))).2 with waits | exits
      · cases writing.symm.trans waits
      · cases writing.symm.trans exits
  | start | read | write | newline | close => rfl

theorem Flows.step
    (flows : Flows text system) (stepped : Step size text system event after) :
    Flows text after := by
  have reads := @Flows.readers text system flows
  obtain ⟨parentEnds, childEnds, alive, ⟨printed, stdout, copied⟩, ended, waited⟩ := flows
  cases stepped with
  | parentCloseRead place =>
      rw [place] at parentEnds copied
      refine ⟨?_, childEnds, nofun, ⟨printed, stdout, copied⟩, ?_, nofun⟩
      · rw [parentEnds]
        rfl
      · intro past
        rcases (ended past).2 with waits | exits
        · cases place.symm.trans waits
        · cases place.symm.trans exits
  | @parentWrite piece rest place taken _ room =>
      rw [place] at parentEnds copied
      refine ⟨parentEnds, childEnds, nofun, ⟨printed, stdout, ?_⟩, ?_, nofun⟩
      · rw [← copied]
        simp only [Parent.unwritten, List.append_assoc]
      · intro past
        rcases (ended past).2 with waits | exits
        · cases place.symm.trans waits
        · cases place.symm.trans exits
  | parentCloseWrite place =>
      rw [place] at parentEnds copied
      refine ⟨?_, childEnds, nofun, ⟨printed, stdout, copied⟩, ?_, nofun⟩
      · rw [parentEnds]
        rfl
      · intro past
        exact ⟨(ended past).1, .inl rfl⟩
  | parentKilled place more noReader =>
      rw [reads place] at noReader
      cases noReader
  | parentWait place exits =>
      rw [place] at parentEnds copied
      refine ⟨parentEnds, childEnds, nofun, ⟨printed, stdout, copied⟩, ?_, fun _ => exits⟩
      exact fun past => ⟨(ended past).1, .inr rfl⟩
  | childCloseWrite place =>
      rw [place] at childEnds copied stdout
      refine ⟨parentEnds, ?_, alive, ⟨printed, stdout, copied⟩, nofun, ?_⟩
      · rw [childEnds]
        rfl
      · intro exits
        cases place.symm.trans (waited exits)
  | @childRead buf rest place arrived =>
      rw [place] at childEnds copied stdout
      rw [arrived] at copied
      refine ⟨parentEnds, childEnds, alive, ⟨printed, stdout, ?_⟩, nofun, ?_⟩
      · simpa only [Child.unprinted, List.append_assoc, List.nil_append, List.cons_append]
          using copied
      · intro exits
        cases place.symm.trans (waited exits)
  | childEndOfFile place nothing noWriter =>
      rw [System.writers, parentEnds, Bool.or_eq_false_iff] at noWriter
      rw [place] at childEnds copied stdout
      refine ⟨parentEnds, childEnds, alive, ⟨printed, stdout, copied⟩, fun _ => ⟨nothing, ?_⟩, ?_⟩
      · cases parent : system.parent with
        | start | write =>
            rw [parent] at noWriter
            cases noWriter.1
        | wait => exact .inl rfl
        | exited => exact .inr rfl
        | killed => exact absurd parent alive
      · intro exits
        cases place.symm.trans (waited exits)
  | @childWrite buf place =>
      rw [place] at childEnds copied stdout
      refine ⟨parentEnds, childEnds, alive, ⟨printed ++ [buf], ?_, ?_⟩, nofun, ?_⟩
      · rw [stdout]
        simp
      · simpa only [Child.unprinted, List.append_nil] using copied
      · intro exits
        cases place.symm.trans (waited exits)
  | childNewline place =>
      have past := ended (.inl place)
      rw [place] at childEnds copied stdout
      refine ⟨parentEnds, childEnds, alive, ⟨printed, ?_, copied⟩, fun _ => past, ?_⟩
      · rw [stdout]
        simp
      · intro exits
        cases place.symm.trans (waited exits)
  | childCloseRead place =>
      have past := ended (.inr (.inl place))
      rw [place] at childEnds copied stdout
      refine ⟨parentEnds, ?_, alive, ⟨printed, ?_, copied⟩, fun _ => past, fun _ => rfl⟩
      · rw [childEnds]
        rfl
      · rw [stdout]
        simp

theorem PipeRun.flows (run : PipeRun size text history system) : Flows text system := by
  refine Trace.invariant (fun _ system => Flows text system) ?_ ?_ run
  · rintro system rfl
    exact Flows.start text
  · intro history system event after flows stepped
    exact flows.step stepped

/-! Every byte is written, read and printed, and every process goes on to its
end. -/

def Parent.left : Parent → Nat
  | start => 3
  | write _ => 2
  | wait => 1
  | exited => 0
  | killed => 0

def Child.left : Child → Nat
  | start => 4
  | read => 3
  | write _ => 3
  | newline => 2
  | close => 1
  | exited => 0

def System.work (text : List UInt8) (system : System) : Nat :=
  3 * (system.parent.unwritten text).length + 2 * system.pipe.length +
    system.child.unprinted.length + system.parent.left + system.child.left

theorem Step.work (stepped : Step size text system event after) :
    after.work text < system.work text := by
  unfold System.work
  cases stepped with
  | parentWrite place taken _ room =>
      have some_left := List.length_pos_iff.mpr taken
      simp only [place, Parent.unwritten, Parent.left, List.length_append]
      omega
  | childRead place arrived =>
      simp only [place, arrived, Child.unprinted, Child.left, List.length_cons, List.length_nil]
      omega
  | parentCloseRead place | parentCloseWrite place | parentKilled place | parentWait place =>
      simp only [place, Parent.unwritten, Parent.left, List.length_nil]
      omega
  | childCloseWrite place | childEndOfFile place | childWrite place | childNewline place
  | childCloseRead place =>
      simp only [place, Child.unprinted, Child.left, List.length_cons, List.length_nil]
      omega

/-- While the child waits for bytes, the parent has the write end and can write
or close it; afterwards the parent waits only for the child. -/
theorem Flows.stopped
    (flows : Flows text system) (room : 0 < size) (final : Final (Step size text) system) :
    system.parent = .exited ∧ system.child = .exited := by
  have readers := @Flows.readers text system flows
  obtain ⟨parentEnds, childEnds, alive, copied, ended, waited⟩ := flows
  have nothing : system.child = .read → system.pipe = [] := by
    intro place
    cases arrived : system.pipe with
    | nil => rfl
    | cons buf rest => exact (final _ _ (.childRead place arrived)).elim
  have goes_on : system.pipe = [] → ∀ rest, system.parent ≠ .write rest := by
    rintro empty (_ | ⟨first, rest⟩) writing
    · exact final _ _ (.parentCloseWrite writing)
    · have writing : system.parent = .write ([first] ++ rest) := writing
      refine final _ _ (.parentWrite writing (List.cons_ne_nil first []) (readers writing) ?_)
      rw [empty, List.length_nil, List.length_singleton]
      omega
  have exited : system.child = .exited := by
    cases child : system.child with
    | start => exact (final _ _ (.childCloseWrite child)).elim
    | write buf => exact (final _ _ (.childWrite child)).elim
    | newline => exact (final _ _ (.childNewline child)).elim
    | close => exact (final _ _ (.childCloseRead child)).elim
    | exited => rfl
    | read =>
        have empty := nothing child
        have writers : system.writers = system.parent.ends.write := by
          rw [System.writers, parentEnds, childEnds, child]
          exact Bool.or_false _
        cases parent : system.parent with
        | start => exact (final _ _ (.parentCloseRead parent)).elim
        | write rest => exact absurd parent (goes_on empty rest)
        | killed => exact absurd parent alive
        | wait | exited =>
            rw [parent] at writers
            exact (final _ _ (.childEndOfFile child empty writers)).elim
  refine ⟨?_, exited⟩
  rcases (ended (.inr (.inr exited))).2 with waits | exits
  · exact (final _ _ (.parentWait waits exited)).elim
  · exact exits

theorem final_of_exited
    (parent : system.parent = .exited) (child : system.child = .exited) :
    Final (Step size text) system := by
  intro event after stepped
  cases stepped with
  | parentCloseRead place | parentWrite place | parentCloseWrite place | parentKilled place
  | parentWait place => cases parent.symm.trans place
  | childCloseWrite place | childRead place | childEndOfFile place | childWrite place
  | childNewline place | childCloseRead place => cases child.symm.trans place

/-- In whatever pieces the text passes through the pipe, and however the two
processes are scheduled: what the child copies is always the beginning of the
text and its newline, nobody is killed, and the program stops, with all of it
copied, both processes at their end, and no end of the pipe open. -/
theorem pipe_copies_argument
    (run : PipeRun size text history system) (room : 0 < size) :
    system.childOut <+: text ++ [10] ∧ system.parent ≠ .killed ∧
    history.length ≤ 3 * text.length + 7 ∧
    (Final (Step size text) system ↔ system.parent = .exited ∧ system.child = .exited) ∧
    (Final (Step size text) system →
      system.childOut = text ++ [10] ∧ system.pipe = [] ∧
        system.readers = false ∧ system.writers = false) := by
  have flows := run.flows
  obtain ⟨printed, stdout, copied⟩ := flows.copied
  refine ⟨?_, flows.alive, ?_, ⟨flows.stopped room, fun both => final_of_exited both.1 both.2⟩, ?_⟩
  · rw [stdout]
    split_ifs with past
    · obtain ⟨empty, waits⟩ := flows.ended (.inr past)
      have all : printed = text := by
        rw [← copied, empty]
        rcases past with child | child <;> rcases waits with parent | parent <;>
          rw [child, parent] <;> simp only [Child.unprinted, Parent.unwritten, List.append_nil]
      rw [all]
    · rw [List.append_nil, ← copied]
      simp only [List.append_assoc]
      exact List.prefix_append _ _
  · have bounded : history.length + system.work text ≤ 3 * text.length + 7 := by
      refine run.bounded ?_ fun stepped => stepped.work
      rintro system rfl
      exact Nat.le_refl _
    omega
  · intro final
    obtain ⟨parent, child⟩ := flows.stopped room final
    obtain ⟨empty, _⟩ := flows.ended (.inr (.inr child))
    rw [child, parent, empty] at copied
    simp only [Child.unprinted, Parent.unwritten, List.append_nil] at copied
    refine ⟨?_, empty, ?_, ?_⟩
    · rw [stdout, copied, child]
      rfl
    · rw [System.readers, flows.parentEnds, flows.childEnds, parent, child]
      rfl
    · rw [System.writers, flows.parentEnds, flows.childEnds, parent, child]
      rfl

/-- One byte through a pipe for one. -/
theorem pipe_copies_argument_one_byte :
    ∃ history system, PipeRun 1 [97] history system ∧ Final (Step 1 [97]) system ∧
      system.childOut = [97, 10] ∧ system.readers = false := by
  have closed : PipeRun 1 [97] _ _ := .next (.start rfl) (.parentCloseRead rfl)
  have written := closed.next
    (@Step.parentWrite 1 [97] _ [97] [] rfl (List.cons_ne_nil 97 []) rfl (Nat.le_refl 1))
  have ready := written.next (.childCloseWrite rfl)
  have taken := ready.next (.childRead rfl rfl)
  have printed := taken.next (.childWrite rfl)
  have waits := printed.next (.parentCloseWrite rfl)
  have past := waits.next (.childEndOfFile rfl rfl rfl)
  have line := past.next (.childNewline rfl)
  have exited := line.next (.childCloseRead rfl)
  have run := exited.next (.parentWait rfl rfl)
  obtain ⟨_, _, _, stops, ends⟩ := pipe_copies_argument run (Nat.one_pos)
  have final := stops.mpr ⟨rfl, rfl⟩
  exact ⟨_, _, run, final, (ends final).1, (ends final).2.2.1⟩

end Runs

end Pipe

end Tpt
