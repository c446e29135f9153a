import Tpt.Lib.Decimal

/-!
The handler of a connection, `Handler` of `myServer.c`.

One buffer receives all chunks, and is compared with `bye` as far as three
bytes whatever was received.
-/

namespace Tpt

namespace EchoServer

def maxLength : Nat := 1024

structure Chunk where
  bytes : List UInt8
  notEmpty : 0 < bytes.length
  fits : bytes.length ≤ maxLength

def lower (byte : UInt8) : UInt8 := if 65 ≤ byte ∧ byte ≤ 90 then byte + 32 else byte

/-- `strncasecmp`, of two strings in memory. -/
def strncasecmp : Nat → List UInt8 → List UInt8 → Int
  | count + 1, first :: firsts, second :: seconds =>
      if lower first ≠ lower second then (lower first).toNat - (lower second).toNat
      else if first = 0 then 0
      else strncasecmp count firsts seconds
  | _, _, _ => 0

def bye : List UInt8 := ascii "bye"

def recv (buf : List UInt8) (chunk : Chunk) : List UInt8 :=
  chunk.bytes ++ buf.drop chunk.bytes.length

/-- What the client gets, and the chunk at which the connection is closed; none
is the end of the stream. -/
structure Session where
  echoed : List UInt8
  closedAt : Option Nat
  deriving DecidableEq

def Session.after (chunk : Chunk) (session : Session) : Session :=
  ⟨chunk.bytes ++ session.echoed, session.closedAt.map (· + 1)⟩

/-- The loop, for these chunks and then the end of the stream. -/
def handlerLoop : List Chunk → List UInt8 → Session
  | [], _ => ⟨[], none⟩
  | chunk :: chunks, buf =>
      let buf := recv buf chunk
      if strncasecmp 3 buf (bye ++ [0]) = 0 then ⟨[], some 0⟩
      else
        let session := handlerLoop chunks buf
        ⟨buf.take chunk.bytes.length ++ session.echoed, session.closedAt.map (· + 1)⟩

def handler (chunks : List Chunk) : Session := handlerLoop chunks (List.replicate maxLength 0)

/-- The first three bytes are `bye`, ignoring case. -/
def StartsBye (bytes : List UInt8) : Prop := (bytes.take 3).map lower = bye

instance (bytes : List UInt8) : Decidable (StartsBye bytes) := inferInstanceAs (Decidable (_ = _))

def expected (chunks : List Chunk) : Session where
  echoed := (chunks.takeWhile fun chunk => ¬ StartsBye chunk.bytes).flatMap (·.bytes)
  closedAt := chunks.findIdx? fun chunk => StartsBye chunk.bytes

/-- What three bytes become when a chunk is laid over them. -/
def laid (older : List UInt8) (chunk : Chunk) : List UInt8 :=
  (chunk.bytes ++ older.drop chunk.bytes.length).take 3

/-- No chunk of fewer than three bytes in front of the first `bye` is one
together with what earlier chunks left behind it. -/
def Clean : List UInt8 → List Chunk → Prop
  | _, [] => True
  | older, chunk :: chunks =>
      StartsBye chunk.bytes ∨
        (¬ (chunk.bytes.length < 3 ∧ StartsBye (laid older chunk)) ∧
          Clean (laid older chunk) chunks)

theorem strncasecmp_cons
    {count : Nat} {first second : UInt8} {firsts seconds : List UInt8} (notEnd : lower second ≠ 0) :
    strncasecmp (count + 1) (first :: firsts) (second :: seconds) = 0 ↔
      lower first = lower second ∧ strncasecmp count firsts seconds = 0 := by
  rw [strncasecmp]
  split_ifs with different stops
  · rw [Int.sub_eq_zero, Int.natCast_inj, UInt8.toNat_inj]
    exact ⟨fun same => absurd same different, fun same => same.1⟩
  · rw [not_not, stops] at different
    exact absurd different.symm notEnd
  · exact ⟨fun same => ⟨not_not.mp different, same⟩, And.right⟩

theorem strncasecmp_bye {buf : List UInt8} (long : 3 ≤ buf.length) :
    strncasecmp 3 buf (bye ++ [0]) = 0 ↔ StartsBye buf := by
  match buf, long with
  | first :: second :: third :: rest, _ =>
      have text : bye = [98, 121, 101] := by decide
      rw [StartsBye, text]
      change strncasecmp 3 _ (98 :: 121 :: 101 :: [0]) = 0 ↔
        [lower first, lower second, lower third] = _
      rw [strncasecmp_cons (by decide), strncasecmp_cons (by decide), strncasecmp_cons (by decide)]
      have lowers : lower 98 = 98 ∧ lower 121 = 121 ∧ lower 101 = 101 := by decide
      simp only [lowers, List.cons.injEq, and_true, strncasecmp]

section Loop

variable {chunk : Chunk} {chunks : List Chunk} {buf older : List UInt8}

theorem take_recv (front : buf.take 3 = older) : (recv buf chunk).take 3 = laid older chunk := by
  rw [recv, laid, ← front, List.take_append, List.take_append, List.drop_take, List.take_take,
    min_self]

theorem length_recv (full : buf.length = maxLength) : (recv buf chunk).length = maxLength := by
  rw [recv, List.length_append, List.length_drop, full, Nat.add_sub_cancel' chunk.fits]

theorem startsBye_take {bytes : List UInt8} : StartsBye (bytes.take 3) ↔ StartsBye bytes := by
  rw [StartsBye, List.take_take, min_self, StartsBye]

theorem startsBye_laid (long : 3 ≤ chunk.bytes.length) :
    StartsBye (laid older chunk) ↔ StartsBye chunk.bytes := by
  rw [laid, startsBye_take, StartsBye, List.take_append_of_le_length long, StartsBye]

theorem StartsBye.length {bytes : List UInt8} (starts : StartsBye bytes) : 3 ≤ bytes.length := by
  have lengths := congrArg List.length starts
  rw [List.length_map, List.length_take] at lengths
  exact min_eq_left_iff.mp lengths

theorem expected_cons (notBye : ¬ StartsBye chunk.bytes) :
    expected (chunk :: chunks) = (expected chunks).after chunk := by
  simp [expected, Session.after, notBye, List.findIdx?_cons]

theorem expected_bye (startsBye : StartsBye chunk.bytes) :
    expected (chunk :: chunks) = ⟨[], some 0⟩ := by
  simp [expected, startsBye, List.findIdx?_cons]

theorem handlerLoop_cons (full : buf.length = maxLength) (front : buf.take 3 = older) :
    handlerLoop (chunk :: chunks) buf =
      if StartsBye (laid older chunk) then ⟨[], some 0⟩
      else (handlerLoop chunks (recv buf chunk)).after chunk := by
  have long : 3 ≤ (recv buf chunk).length := by
    rw [length_recv full]
    decide
  have sent : (recv buf chunk).take chunk.bytes.length = chunk.bytes := List.take_left' rfl
  have decides :
      strncasecmp 3 (recv buf chunk) (bye ++ [0]) = 0 ↔ StartsBye (laid older chunk) := by
    rw [strncasecmp_bye long, ← startsBye_take, take_recv front]
  rw [handlerLoop, sent, Session.after]
  simp only [decides]

theorem Session.after_injective {first second : Session}
    (same : first.after chunk = second.after chunk) : first = second := by
  obtain ⟨echoed, closedAt⟩ := first
  obtain ⟨echoed', closedAt'⟩ := second
  obtain ⟨echoes, closes⟩ := Session.mk.inj same
  obtain rfl := List.append_cancel_left echoes
  have closed : closedAt = closedAt' := Option.map_injective Nat.succ_injective closes
  rw [closed]

theorem Session.after_ne (session : Session) : session.after chunk ≠ ⟨[], some 0⟩ := by
  intro same
  have nothing := (List.append_eq_nil_iff.mp (Session.mk.inj same).1).1
  exact absurd chunk.notEmpty (by rw [nothing]; exact lt_irrefl 0)

theorem handlerLoop_iff (full : buf.length = maxLength) (front : buf.take 3 = older) :
    handlerLoop chunks buf = expected chunks ↔ Clean older chunks := by
  induction chunks generalizing buf older with
  | nil => exact ⟨fun _ => trivial, fun _ => rfl⟩
  | cons chunk chunks inductionHypothesis =>
      have later := inductionHypothesis (@length_recv chunk buf full) (take_recv front)
      rw [handlerLoop_cons full front, Clean]
      by_cases own : StartsBye chunk.bytes
      · rw [if_pos ((startsBye_laid own.length).mpr own), expected_bye own]
        exact ⟨fun _ => .inl own, fun _ => rfl⟩
      · rw [expected_cons own]
        by_cases joined : StartsBye (laid older chunk)
        · have short : chunk.bytes.length < 3 := by
            by_contra long
            exact own ((startsBye_laid (Nat.le_of_not_lt long)).mp joined)
          rw [if_pos joined]
          refine ⟨fun same => absurd same.symm (Session.after_ne _), ?_⟩
          rintro (starts | ⟨clean, _⟩)
          · exact absurd starts own
          · exact absurd ⟨short, joined⟩ clean
        · rw [if_neg joined]
          constructor
          · intro same
            exact .inr ⟨fun both => joined both.2, later.mp (Session.after_injective same)⟩
          · rintro (starts | ⟨_, clean⟩)
            · exact absurd starts own
            · rw [later.mpr clean]

end Loop

/-- The handler decides by each chunk's own bytes if and only if no short chunk
is completed to `bye` by older ones.  Its `printf` of the buffer is no part of
this: `%s` reads on behind a chunk of `MAX_LENGTH` bytes that has no zero. -/
theorem handler_meets_iff (chunks : List Chunk) :
    handler chunks = expected chunks ↔ Clean [0, 0, 0] chunks :=
  handlerLoop_iff List.length_replicate rfl

def xyeAndB : List Chunk := [⟨ascii "xye", by decide, by decide⟩, ⟨ascii "b", by decide, by decide⟩]

theorem short_chunk_closes :
    handler xyeAndB = ⟨ascii "xye", some 1⟩ ∧ expected xyeAndB = ⟨ascii "xyeb", none⟩ ∧
      handler xyeAndB ≠ expected xyeAndB := by
  have closed : handler xyeAndB = ⟨ascii "xye", some 1⟩ := by decide
  have asked : expected xyeAndB = ⟨ascii "xyeb", none⟩ := by decide
  refine ⟨closed, asked, ?_⟩
  rw [closed, asked]
  decide

end EchoServer

end Tpt
