import Tpt.Lib.Decimal

/-!
The scanner of `miniprintf.c`.

A read behind the terminator of the format has no result, and neither has
`va_arg` without an argument of the kind that it asks for.
-/

namespace Tpt

namespace MiniPrintf

/-- The characters of a string in front of its terminator. -/
structure CString where
  bytes : List UInt8
  terminated : 0 ∉ bytes

def CString.memory (string : CString) : List UInt8 := string.bytes ++ [0]

inductive Arg where
  | string (s : CString)
  | int (d : Int32)

/-- What `printf` prints of an argument with `%s`, `%d` and `%c`. -/
def putString (s : CString) : List UInt8 := s.bytes

def putInt (d : Int32) : List UInt8 := signedDecimal d.toInt

def putChar (d : Int32) : List UInt8 := [d.toUInt32.toUInt8]

/-- The switch: what is printed, and the arguments that are left. -/
def directive (byte : UInt8) (args : List Arg) : Option (List UInt8 × List Arg) :=
  if byte = 115 then
    match args with
    | .string s :: args => some (putString s, args)
    | _ => none
  else if byte = 100 then
    match args with
    | .int d :: args => some (putInt d, args)
    | _ => none
  else if byte = 99 then
    match args with
    | .int d :: args => some (putChar d, args)
    | _ => none
  else some ([], args)

/-- The loop over what is in memory from `p` on: what is printed, and the
arguments that are left. -/
def scan : List UInt8 → List Arg → Option (List UInt8 × List Arg)
  | [], _ => none
  | byte :: rest, args =>
      if byte = 0 then some ([], args)
      else if byte ≠ 37 then do
        let (output, left) ← scan rest args
        return (byte :: output, left)
      else match rest with
        | [] => none
        | next :: rest => do
            let (text, args) ← directive next args
            let (output, left) ← scan rest args
            return (text ++ output, left)

def header (fmt : CString) : List UInt8 := ascii "test : " ++ fmt.bytes ++ [10]

def test (fmt : CString) (args : List Arg) : Option (List UInt8 × List Arg) := do
  let (output, left) ← scan fmt.memory args
  return (header fmt ++ output, left)

inductive Piece where
  | char (byte : UInt8)
  | string
  | int
  | character
  | dropped

def Piece.ofDirective (byte : UInt8) : Piece :=
  if byte = 115 then .string
  else if byte = 100 then .int
  else if byte = 99 then .character
  else .dropped

/-- A `%` and the character behind it are one piece; a `%` at the end is a
character as the others are. -/
def pieces : List UInt8 → List Piece
  | [] => []
  | [byte] => [.char byte]
  | byte :: next :: rest =>
      if byte = 37 then .ofDirective next :: pieces rest
      else .char byte :: pieces (next :: rest)

/-- The output for these pieces, with one argument of the right kind for each of
the directives. -/
inductive Rendered : List Piece → List Arg → List UInt8 → Prop where
  | nil : Rendered [] [] []
  | char {pieces args output} (byte : UInt8) :
      Rendered pieces args output → Rendered (.char byte :: pieces) args (byte :: output)
  | string {pieces args output} (s : CString) :
      Rendered pieces args output →
      Rendered (.string :: pieces) (.string s :: args) (putString s ++ output)
  | int {pieces args output} (d : Int32) :
      Rendered pieces args output →
      Rendered (.int :: pieces) (.int d :: args) (putInt d ++ output)
  | character {pieces args output} (d : Int32) :
      Rendered pieces args output →
      Rendered (.character :: pieces) (.int d :: args) (putChar d ++ output)
  | dropped {pieces args output} :
      Rendered pieces args output → Rendered (.dropped :: pieces) args output

def Complete : List UInt8 → Prop
  | [] => True
  | [byte] => byte ≠ 37
  | byte :: next :: rest => if byte = 37 then Complete rest else Complete (next :: rest)

/-- The scan ends at the terminator, uses all arguments and prints this. -/
def Prints (fmt : CString) (args : List Arg) (output : List UInt8) : Prop :=
  test fmt args = some (header fmt ++ output, [])

section Scan

variable {byte next : UInt8} {rest bytes : List UInt8} {args : List Arg} {output : List UInt8}

theorem scan_char (notZero : byte ≠ 0) (plain : byte ≠ 37) :
    scan (byte :: rest) args =
      (scan rest args).map fun (output, left) => (byte :: output, left) := by
  cases rest <;> simp [scan, notZero, plain, Option.map_eq_bind]

theorem scan_percent :
    scan (37 :: next :: rest) args =
      (directive next args).bind fun (text, args) =>
        (scan rest args).map fun (output, left) => (text ++ output, left) := by
  simp [scan, Option.map_eq_bind]

theorem Rendered.directive
    {pieces : List Piece} (rendered : Rendered (.ofDirective next :: pieces) args output) :
    ∃ text left later, directive next args = some (text, left) ∧ output = text ++ later ∧
      Rendered pieces left later := by
  rw [Piece.ofDirective] at rendered
  split_ifs at rendered with string int character
  · cases rendered with
    | string s later => exact ⟨_, _, _, by rw [MiniPrintf.directive, if_pos string], rfl, later⟩
  · cases rendered with
    | int d later =>
        refine ⟨_, _, _, ?_, rfl, later⟩
        rw [MiniPrintf.directive, if_neg string, if_pos int]
  · cases rendered with
    | character d later =>
        refine ⟨_, _, _, ?_, rfl, later⟩
        rw [MiniPrintf.directive, if_neg string, if_neg int, if_pos character]
  · cases rendered with
    | dropped later =>
        refine ⟨[], args, output, ?_, rfl, later⟩
        simp only [MiniPrintf.directive, string, int, character, if_false]

theorem scan_complete
    (terminated : 0 ∉ bytes) (rendered : Rendered (pieces bytes) args output)
    (complete : Complete bytes) : scan (bytes ++ [0]) args = some (output, []) := by
  induction bytes using pieces.induct generalizing args output with
  | case1 =>
      cases rendered
      rfl
  | case2 byte =>
      have notZero : byte ≠ 0 := (List.ne_of_not_mem_cons terminated).symm
      cases rendered with
      | char _ later =>
          cases later
          exact scan_char notZero complete
  | case3 next rest inductionHypothesis =>
      rw [Complete, if_pos rfl] at complete
      rw [pieces, if_pos rfl] at rendered
      obtain ⟨text, left, later, switched, rfl, renderedLater⟩ := rendered.directive
      have plain : 0 ∉ rest := fun member => terminated (.tail _ (.tail _ member))
      have scanned := inductionHypothesis plain renderedLater complete
      rw [List.cons_append, List.cons_append, scan_percent, switched, Option.bind_some]
      exact congrArg (Option.map _) scanned
  | case4 byte next rest notPercent inductionHypothesis =>
      have notZero : byte ≠ 0 := (List.ne_of_not_mem_cons terminated).symm
      rw [Complete, if_neg notPercent] at complete
      rw [pieces, if_neg notPercent] at rendered
      cases rendered with
      | char _ later =>
          have plain : 0 ∉ next :: rest := fun member => terminated (.tail _ member)
          have scanned := inductionHypothesis plain later complete
          rw [List.cons_append, scan_char notZero notPercent, scanned]
          rfl

/-- A scan that ends has not met a `%` in front of the terminator. -/
theorem complete_of_scan
    {result : List UInt8 × List Arg} (terminated : 0 ∉ bytes)
    (scanned : scan (bytes ++ [0]) args = some result) : Complete bytes := by
  induction bytes using pieces.induct generalizing args result with
  | case1 => trivial
  | case2 byte =>
      rintro rfl
      rw [List.cons_append, List.nil_append, scan_percent] at scanned
      obtain ⟨_, _, later⟩ := Option.bind_eq_some_iff.mp scanned
      cases later
  | case3 next rest inductionHypothesis =>
      have plain : 0 ∉ rest := fun member => terminated (.tail _ (.tail _ member))
      rw [List.cons_append, List.cons_append, scan_percent] at scanned
      obtain ⟨_, _, later⟩ := Option.bind_eq_some_iff.mp scanned
      obtain ⟨_, scannedRest, _⟩ := Option.map_eq_some_iff.mp later
      rw [Complete, if_pos rfl]
      exact inductionHypothesis plain scannedRest
  | case4 byte next rest notPercent inductionHypothesis =>
      have notZero : byte ≠ 0 := (List.ne_of_not_mem_cons terminated).symm
      have plain : 0 ∉ next :: rest := fun member => terminated (.tail _ member)
      rw [List.cons_append, scan_char notZero notPercent] at scanned
      obtain ⟨_, scannedRest, _⟩ := Option.map_eq_some_iff.mp scanned
      rw [Complete, if_neg notPercent]
      exact inductionHypothesis plain scannedRest

end Scan

/-- A format is printed as its pieces are if and only if it does not end in the
`%` of a directive. -/
theorem prints_iff
    {fmt : CString} {args : List Arg} {output : List UInt8}
    (rendered : Rendered (pieces fmt.bytes) args output) :
    Prints fmt args output ↔ Complete fmt.bytes := by
  constructor
  · intro prints
    obtain ⟨_, scanned, _⟩ := Option.bind_eq_some_iff.mp prints
    exact complete_of_scan fmt.terminated scanned
  · intro complete
    have scanned : scan fmt.memory args = some (output, []) :=
      scan_complete fmt.terminated rendered complete
    rw [Prints, test, scanned]
    rfl

/-- The format `%d!`. -/
theorem prints_iff_one_number :
    Prints ⟨ascii "%d!", by decide⟩ [.int 7] (ascii "7!") ↔ Complete (ascii "%d!") :=
  @prints_iff ⟨ascii "%d!", by decide⟩ _ _ (.int 7 (.char 33 .nil))

/-- The format `50%`. -/
theorem percent_at_end_overruns :
    Rendered (pieces (ascii "50%")) [] (ascii "50%") ∧
      test ⟨ascii "50%", by decide⟩ [] = none ∧
      ¬ Prints ⟨ascii "50%", by decide⟩ [] (ascii "50%") :=
  ⟨.char 53 (.char 48 (.char 37 .nil)), rfl, fun prints => nomatch prints⟩

end MiniPrintf

end Tpt
