import Mathlib.Data.List.TakeWhile
import Tpt.Lib.Decimal
import Tpt.Lib.Script
import Tpt.Lib.Slice

/-!
The process in the new namespaces: `child_fn` of `child.c`, with the command
loop that it runs.

The replies are what `getchar` returns, with nothing for `EOF`; a terminal can
give characters again after it.  `g_cmd` is filled without regard to its size.
The parent, which shares it, is done with it when the child's first second is
over.
-/

namespace Tpt

namespace LinuxNamespace

open Memory

/-- `sizeof(g_cmd)`. -/
def cmdSize : Nat := 512

abbrev Reply := Option UInt8

/-- What `getchar` returned, and what `system` was given. -/
structure Session where
  input : List Reply
  ran : List (List UInt8)

abbrev Shell := Program Reply Session

def Session.start : Session where
  input := []
  ran := []

def getchar : Shell Reply :=
  .call fun ch session => (ch, { session with input := session.input ++ [ch] })

def system (cmd : List UInt8) : Shell PUnit :=
  .modify fun session => { session with ran := session.ran ++ [cmd] }

/-- The character that `cmd[i] = ch` stores. -/
def toChar (ch : Reply) : UInt8 := ch.getD 255

def stringOf (cmd : Bytes) : List UInt8 := (slice cmd 0 cmdSize).takeWhile (· ≠ 0)

def strncmp : Nat → List UInt8 → List UInt8 → Int
  | count + 1, first :: firsts, second :: seconds =>
      if first ≠ second then first.toNat - second.toNat
      else if first = 0 then 0
      else strncmp count firsts seconds
  | _, _, _ => 0

def exitStr : List UInt8 := ascii "q"

/-- One turn, which stores to `cmd[i]`; none is a store outside `g_cmd`. -/
def childGetCmdBody (place : Nat × Bytes) : Shell (Nat × Bytes ⊕ Option Bytes) := do
  let ch ← getchar
  if place.1 < cmdSize then
    if ch ≠ some 10 then pure (.inl (place.1 + 1, overlay place.2 place.1 [toChar ch]))
    else pure (.inr (some (overlay place.2 place.1 [0])))
  else pure (.inr none)

def childGetCmd (cmd : Bytes) : Shell (Option Bytes) := Program.loop childGetCmdBody (0, cmd)

inductive Ending where
  | exit
  | overrun
  deriving DecidableEq

def childCmdLoopBody (cmd : Bytes) : Shell (Bytes ⊕ Ending) := do
  match ← childGetCmd cmd with
  | none => pure (.inr .overrun)
  | some cmd =>
      if strncmp exitStr.length (slice cmd 0 cmdSize) (exitStr ++ [0]) = 0 then
        pure (.inr .exit)
      else if 0 < (stringOf cmd).length then do
        system (stringOf cmd)
        pure (.inl cmd)
      else pure (.inl cmd)

def childCmdLoop (cmd : Bytes) : Shell Ending := Program.loop childCmdLoopBody cmd

/-- `snprintf` into `g_cmd`. -/
def snprintf (cmd : Bytes) (text : List UInt8) : Bytes :=
  overlay cmd 0 (text.take (cmdSize - 1) ++ [0])

def ifconfig (vethid : UInt32) (netcnt : Int32) : List UInt8 :=
  ascii "ifconfig vethm" ++ hexadecimal vethid.toNat ++ ascii "-1 192.168.1." ++
    signedDecimal netcnt.toInt ++ ascii "/24 up"

def childFn (vethid : UInt32) (netcnt : Int32) (cmd : Bytes) : Shell Ending := do
  system (ascii "ip link")
  let cmd := snprintf cmd (ifconfig vethid netcnt)
  system (stringOf cmd)
  childCmdLoop cmd

/-! What the child is meant to do: the lines of its input. -/

def Fits (line : List Reply) : Prop := some 10 ∉ line ∧ line.length < cmdSize

def command (line : List Reply) : List UInt8 := (line.map toChar).takeWhile (· ≠ 0)

def Quits (line : List Reply) : Prop := (command line).head? = some 113

/-- After these lines, with the commands from before the loop, and with
something more of the input read. -/
structure Ran (before : List (List UInt8)) (lines : List (List Reply)) (more : List Reply)
    (session : Session) : Prop where
  each : ∀ line ∈ lines, Fits line ∧ ¬ Quits line
  input : session.input = lines.flatMap (· ++ [some 10]) ++ more
  ran : session.ran = before ++ (lines.map command).filter (· ≠ [])

/-- The commands of `child_fn` itself. -/
def setUp (vethid : UInt32) (netcnt : Int32) : List (List UInt8) :=
  [ascii "ip link", ifconfig vethid netcnt]

/-- The child waits for input, with room in `g_cmd`, or to see that there is
none. -/
def Waits (before : List (List UInt8)) (session : Session) : Prop :=
  ∃ lines line, some 10 ∉ line ∧ line.length ≤ cmdSize ∧ Ran before lines line session

/-- It exits at the first line that says so, and leaves `g_cmd` at the first
one that is too long. -/
def Ends (before : List (List UInt8)) (ending : Ending) (session : Session) : Prop :=
  match ending with
  | .exit => ∃ lines line, Fits line ∧ Quits line ∧ Ran before lines (line ++ [some 10]) session
  | .overrun => ∃ lines line ch, some 10 ∉ line ∧ line.length = cmdSize ∧
      Ran before lines (line ++ [ch]) session

section Strings

variable {cmd : Bytes} {line : List Reply} {text : List UInt8}

theorem stringOf_terminated
    (stored : slice cmd 0 (text.length + 1) = text ++ [0]) (room : text.length < cmdSize) :
    stringOf cmd = text.takeWhile (· ≠ 0) := by
  have split : text.length + 1 + (cmdSize - (text.length + 1)) = cmdSize := by omega
  rw [stringOf, ← split, slice_append, stored, List.append_assoc, List.takeWhile_append]
  split_ifs with whole
  · rw [List.singleton_append, List.takeWhile_cons_of_neg (by simp), List.append_nil]
    exact ((List.takeWhile_prefix _).eq_of_length whole).symm
  · rfl

theorem strncmp_one
    {first second : UInt8} {firsts seconds : List UInt8} :
    strncmp 1 (first :: firsts) (second :: seconds) = 0 ↔ first = second := by
  rw [strncmp]
  split_ifs with different zero
  · rw [Int.sub_eq_zero, Int.natCast_inj, UInt8.toNat_inj]
  · exact ⟨fun _ => not_not.mp different, fun _ => rfl⟩
  · exact ⟨fun _ => not_not.mp different, fun _ => rfl⟩

/-- The comparison looks at the first character. -/
theorem strncmp_exitStr
    (stored : slice cmd 0 (text.length + 1) = text ++ [0]) (room : text.length < cmdSize) :
    strncmp exitStr.length (slice cmd 0 cmdSize) (exitStr ++ [0]) = 0 ↔
      (text.takeWhile (· ≠ 0)).head? = some 113 := by
  have split : text.length + 1 + (cmdSize - (text.length + 1)) = cmdSize := by omega
  have literal : exitStr = [113] := by decide
  rw [← split, slice_append, stored, literal]
  cases text with
  | nil =>
      refine strncmp_one.trans ?_
      simp
  | cons first rest =>
      refine strncmp_one.trans ?_
      by_cases zero : first = 0
      · subst zero
        simp
      · simp [zero]

end Strings

section Runs

variable {before : List (List UInt8)} {lines : List (List Reply)} {more : List Reply}
variable {session : Session}

theorem Ran.getchar
    (ran : Ran before lines more session) (ch : Reply) :
    Ran before lines (more ++ [ch]) { session with input := session.input ++ [ch] } where
  each := ran.each
  input := by
    rw [ran.input, List.append_assoc]
  ran := ran.ran

theorem Ran.line
    {line : List Reply} (ran : Ran before lines (line ++ [some 10]) session) (fits : Fits line)
    (stays : ¬ Quits line) (given : List (List UInt8))
    (commands : given = if command line = [] then [] else [command line]) :
    Ran before (lines ++ [line]) [] { session with ran := session.ran ++ given } where
  each := by
    intro other member
    rcases List.mem_append.mp member with earlier | last
    · exact ran.each other earlier
    · cases List.mem_singleton.mp last
      exact ⟨fits, stays⟩
  input := by
    rw [List.append_nil, ran.input]
    simp
  ran := by
    simp only [ran.ran, commands, List.map_append, List.filter_append, List.append_assoc]
    congr 2
    split_ifs with empty
    · simp [empty]
    · simp [empty]

def Reading (before : List (List UInt8)) (place : Nat × Bytes) (session : Session) : Prop :=
  ∃ lines line, some 10 ∉ line ∧ line.length = place.1 ∧ place.1 ≤ cmdSize ∧
    slice place.2 0 place.1 = line.map toChar ∧ Ran before lines line session

def Got (before : List (List UInt8)) (got : Option Bytes) (session : Session) : Prop :=
  match got with
  | some cmd => ∃ lines line, Fits line ∧
      slice cmd 0 (line.length + 1) = line.map toChar ++ [0] ∧
      Ran before lines (line ++ [some 10]) session
  | none => ∃ lines line ch, some 10 ∉ line ∧ line.length = cmdSize ∧
      Ran before lines (line ++ [ch]) session

theorem triple_childGetCmdBody
    (place : Nat × Bytes) :
    Triple (Waits before) (Reading before place) (childGetCmdBody place)
      (Sum.elim (Reading before) (Got before)) := by
  obtain ⟨i, cmd⟩ := place
  unfold childGetCmdBody
  have reads : Triple (Waits before) (Reading before (i, cmd)) getchar fun ch session =>
      ∃ lines line, some 10 ∉ line ∧ line.length = i ∧ i ≤ cmdSize ∧
        slice cmd 0 i = line.map toChar ∧ Ran before lines (line ++ [ch]) session := by
    apply Triple.call
    · rintro session ⟨lines, line, unended, rfl, room, _, ran⟩
      exact ⟨lines, line, unended, room, ran⟩
    · rintro ch session ⟨lines, line, unended, length, room, stored, ran⟩
      exact ⟨lines, line, unended, length, room, stored, ran.getchar ch⟩
  apply Triple.bind reads
  intro ch
  split_ifs with inside more
  · apply Triple.ret
    rintro session ⟨lines, line, unended, rfl, _, stored, ran⟩
    refine ⟨lines, line ++ [ch], ?_, List.length_append, inside, ?_, ran⟩
    · rw [List.mem_append, not_or, List.mem_singleton]
      exact ⟨unended, Ne.symm more⟩
    · rw [List.map_append, ← stored]
      exact slice_overlay_append cmd line.length [toChar ch]
  · apply Triple.ret
    rintro session ⟨lines, line, unended, rfl, _, stored, ran⟩
    rw [not_not.mp more] at ran
    refine ⟨lines, line, ⟨unended, inside⟩, ?_, ran⟩
    rw [← stored]
    exact slice_overlay_append cmd line.length [0]
  · apply Triple.ret
    rintro session ⟨lines, line, unended, rfl, room, _, ran⟩
    exact ⟨lines, line, ch, unended, Nat.le_antisymm room (Nat.le_of_not_lt inside), ran⟩

theorem triple_childGetCmd
    (cmd : Bytes) :
    Triple (Waits before) (fun session => ∃ lines, Ran before lines [] session) (childGetCmd cmd)
      (Got before) := by
  apply (Triple.loop triple_childGetCmdBody (0, cmd)).weaken
  · rintro session ⟨lines, ran⟩
    exact ⟨lines, [], List.not_mem_nil, rfl, Nat.zero_le _, rfl, ran⟩
  · exact fun _ _ got => got

theorem triple_childCmdLoopBody
    (cmd : Bytes) :
    Triple (Waits before) (fun session => ∃ lines, Ran before lines [] session)
      (childCmdLoopBody cmd)
      (Sum.elim (fun _ session => ∃ lines, Ran before lines [] session) (Ends before)) := by
  apply Triple.bind (triple_childGetCmd cmd)
  intro got
  cases got with
  | none => exact Triple.ret fun _ got => got
  | some cmd =>
      dsimp only
      have facts : ∀ session, Got before (some cmd) session → ∃ lines line,
          Fits line ∧ stringOf cmd = command line ∧
          (strncmp exitStr.length (slice cmd 0 cmdSize) (exitStr ++ [0]) = 0 ↔ Quits line) ∧
          Ran before lines (line ++ [some 10]) session := by
        rintro session ⟨lines, line, fits, stored, ran⟩
        rw [← List.length_map toChar] at stored
        have room : (line.map toChar).length < cmdSize := by
          rw [List.length_map]
          exact fits.2
        exact ⟨lines, line, fits, stringOf_terminated stored room, strncmp_exitStr stored room, ran⟩
      split_ifs with quits runs
      · apply Triple.ret
        intro session got
        obtain ⟨lines, line, fits, _, exits, ran⟩ := facts session got
        exact ⟨lines, line, fits, exits.mp quits, ran⟩
      · have given : Triple (Waits before) (Got before (some cmd)) (system (stringOf cmd))
            fun _ session => ∃ lines, Ran before lines [] session := by
          apply Triple.modify
          intro session got
          obtain ⟨lines, line, fits, text, exits, ran⟩ := facts session got
          refine ⟨lines ++ [line], ran.line fits (mt exits.mpr quits) [stringOf cmd] ?_⟩
          rw [text, List.length_pos_iff] at runs
          rw [text, if_neg runs]
        apply Triple.bind given
        exact fun _ => Triple.ret fun _ ran => ran
      · apply Triple.ret
        intro session got
        obtain ⟨lines, line, fits, text, exits, ran⟩ := facts session got
        refine ⟨lines ++ [line], ?_⟩
        have after := ran.line fits (mt exits.mpr quits) [] ?_
        · rwa [List.append_nil] at after
        · rw [text, List.length_pos_iff, not_not] at runs
          rw [if_pos runs]

/-- The command fits into `g_cmd` whatever its numbers. -/
theorem length_ifconfig (vethid : UInt32) (netcnt : Int32) :
    (ifconfig vethid netcnt).length < cmdSize := by
  have vethidFits : (hexadecimal vethid.toNat).length ≤ 8 :=
    length_hexadecimal_le (by decide) vethid.toNat_lt
  have bounds := And.intro netcnt.le_toInt netcnt.toInt_lt
  have netcntFits : (signedDecimal netcnt.toInt).length ≤ 10 + 1 := by
    refine length_signedDecimal_le (by decide) ?_
    norm_num at bounds ⊢
    omega
  have literals : (ascii "ifconfig vethm").length = 14 ∧ (ascii "-1 192.168.1.").length = 13 ∧
      (ascii "/24 up").length = 6 := by decide
  simp only [ifconfig, List.length_append, literals, cmdSize]
  omega

theorem zero_not_mem_ifconfig (vethid : UInt32) (netcnt : Int32) :
    (0 : UInt8) ∉ ifconfig vethid netcnt := by
  have literals : (0 : UInt8) ∉ ascii "ifconfig vethm" ∧ (0 : UInt8) ∉ ascii "-1 192.168.1." ∧
      (0 : UInt8) ∉ ascii "/24 up" := by decide
  have vethid : (0 : UInt8) ∉ hexadecimal vethid.toNat := by
    intro found
    obtain ⟨digit, below, same⟩ := mem_hexadecimal found
    have nonzero : ∀ digit < 16, hexDigit digit ≠ 0 := by decide
    exact nonzero digit below same.symm
  have netcnt : (0 : UInt8) ∉ signedDecimal netcnt.toInt :=
    NotInNumbers.not_mem_signedDecimal (by decide) _
  simp only [ifconfig, List.mem_append, not_or]
  exact ⟨⟨⟨⟨literals.1, vethid⟩, literals.2.1⟩, netcnt⟩, literals.2.2⟩

theorem stringOf_snprintf (vethid : UInt32) (netcnt : Int32) (cmd : Bytes) :
    stringOf (snprintf cmd (ifconfig vethid netcnt)) = ifconfig vethid netcnt := by
  have fits := length_ifconfig vethid netcnt
  have whole : (ifconfig vethid netcnt).take (cmdSize - 1) = ifconfig vethid netcnt :=
    List.take_of_length_le (Nat.le_sub_one_of_lt fits)
  have stored := slice_overlay cmd 0 (ifconfig vethid netcnt ++ [0])
  rw [List.length_append, List.length_singleton] at stored
  rw [snprintf, whole, stringOf_terminated stored fits, List.takeWhile_eq_self_iff]
  intro byte member
  refine decide_eq_true ?_
  rintro rfl
  exact zero_not_mem_ifconfig vethid netcnt member

theorem triple_childFn
    (vethid : UInt32) (netcnt : Int32) (cmd : Bytes) :
    Triple (Waits (setUp vethid netcnt)) (fun session => session = .start)
      (childFn vethid netcnt cmd) (Ends (setUp vethid netcnt)) := by
  have link : Triple (Waits (setUp vethid netcnt)) (fun session => session = .start)
      (system (ascii "ip link")) fun _ session =>
        session = { input := [], ran := [ascii "ip link"] } := by
    apply Triple.modify
    rintro session rfl
    rfl
  have interface : Triple (Waits (setUp vethid netcnt))
      (fun session => session = { input := [], ran := [ascii "ip link"] })
      (system (stringOf (snprintf cmd (ifconfig vethid netcnt)))) fun _ session =>
        ∃ lines, Ran (setUp vethid netcnt) lines [] session := by
    apply Triple.modify
    rintro session rfl
    rw [stringOf_snprintf]
    exact ⟨[], fun _ member => (List.not_mem_nil member).elim, rfl, rfl⟩
  apply Triple.bind link
  intro _
  apply Triple.bind interface
  intro _
  exact Triple.loop triple_childCmdLoopBody _

theorem ends_childGetCmd (cmd : Bytes) : Consumes (fun _ => True) (childGetCmd cmd) := by
  apply Consumes.loop
  intro place
  apply Consumes.call_bind
  intro ch
  split_ifs <;> exact Consumes.ends_ret _

theorem ends_childFn
    (vethid : UInt32) (netcnt : Int32) (cmd : Bytes) :
    Consumes (fun _ => False) (childFn vethid netcnt cmd) := by
  apply Consumes.ends_bind (Consumes.modify _)
  intro _
  apply Consumes.ends_bind (Consumes.modify _)
  intro _
  apply Consumes.loop
  intro cmd
  apply Consumes.bind (ends_childGetCmd cmd)
  intro got
  refine Consumes.weaken (?_ : Consumes (fun _ => False) _) fun _ required => required.2 trivial
  cases got with
  | none => exact Consumes.ends_ret _
  | some cmd =>
      dsimp only
      split_ifs
      · exact Consumes.ends_ret _
      · exact Consumes.ends_bind (Consumes.modify _) fun _ => Consumes.ends_ret _
      · exact Consumes.ends_ret _

/-- Whatever characters come, `system` is given the two commands of `child_fn`
and then each line of the input, up to the first one that begins with `q`: there
the child exits.  It ends in no other way than by storing outside `g_cmd`, as
soon as a line has 512 characters, the end of the input read as characters. -/
theorem child_runs_lines (vethid : UInt32) (netcnt : Int32) (cmd : Bytes) (script : List Reply) :
    childFn vethid netcnt cmd script .start ≠ .diverged ∧
      (childFn vethid netcnt cmd script .start).Meets (Waits (setUp vethid netcnt))
        (Ends (setUp vethid netcnt)) := by
  refine ⟨?_, triple_childFn vethid netcnt cmd script .start rfl⟩
  intro diverged
  have within := ends_childFn vethid netcnt cmd script .start
  rw [diverged] at within
  exact within

end Runs

end LinuxNamespace

end Tpt
