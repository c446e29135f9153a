import Mathlib.Tactic

/-!
Programs that make system calls, run against a script of replies.

A program consumes one reply for each call it makes.  It returns, or it stops
at a call for which the script has no reply left, or, if a loop turns without
making a call, it diverges.  `Triple` is partial correctness together with an
invariant for the states in which a call is pending; `Consumes` excludes
divergence.
-/

namespace Tpt

universe u v w

/-- How a run of a program against a script ends. -/
inductive Outcome (Reply : Type u) (State : Type v) (α : Type w) where
  | done (value : α) (state : State) (rest : List Reply)
  | starved (state : State)
  | diverged

def Program (Reply : Type u) (State : Type v) (α : Type w) :=
  List Reply → State → Outcome Reply State α

namespace Program

variable {Reply : Type u} {State : Type v} {α β : Type w}

def ret (value : α) : Program Reply State α :=
  fun script state => .done value state script

def andThen (program : Program Reply State α) (next : α → Program Reply State β) :
    Program Reply State β :=
  fun script state =>
    match program script state with
    | .done value state rest => next value rest state
    | .starved state => .starved state
    | .diverged => .diverged

instance : Monad (Program Reply State) where
  pure := ret
  bind := andThen

/-- A system call: the next reply decides its result and its effect. -/
def call (answer : Reply → State → α × State) : Program Reply State α
  | [], state => .starved state
  | reply :: rest, state => .done (answer reply state).1 (answer reply state).2 rest

def modify (change : State → State) : Program Reply State PUnit :=
  fun script state => .done ⟨⟩ (change state) script

def loopFor (body : β → Program Reply State (β ⊕ α)) : Nat → β → Program Reply State α
  | 0, _, _, _ => .diverged
  | fuel + 1, value, script, state =>
      match body value script state with
      | .done (.inl value) state rest => loopFor body fuel value rest state
      | .done (.inr result) state rest => .done result state rest
      | .starved state => .starved state
      | .diverged => .diverged

/-- A loop whose body either continues, with `.inl`, or leaves the loop, with
`.inr`.  A body that makes a call whenever it continues cannot continue more
often than there are replies. -/
def loop (body : β → Program Reply State (β ⊕ α)) (value : β) : Program Reply State α :=
  fun script state => loopFor body (script.length + 1) value script state

end Program

variable {Reply : Type u} {State : Type v} {α β : Type w}

def Outcome.state? : Outcome Reply State α → Option State
  | .done _ state _ => some state
  | .starved state => some state
  | .diverged => none

/-- A returned value satisfies `post`, and a pending call is in a state that
satisfies `during`. -/
def Outcome.Meets (during : State → Prop) (post : α → State → Prop) :
    Outcome Reply State α → Prop
  | .done value state _ => post value state
  | .starved state => during state
  | .diverged => True

/-- From every state that satisfies `pre` the program returns with `post`, and
waits for a reply only in states that satisfy `during`. -/
def Triple (during pre : State → Prop) (program : Program Reply State α)
    (post : α → State → Prop) : Prop :=
  ∀ script state, pre state → (program script state).Meets during post

namespace Triple

variable {during pre pre' : State → Prop}

theorem ret
    {post : α → State → Prop} {value : α} (holds : ∀ state, pre state → post value state) :
    Triple during pre (pure value : Program Reply State α) post :=
  fun _ state before => holds state before

theorem bind
    {program : Program Reply State α} {next : α → Program Reply State β}
    {mid : α → State → Prop} {post : β → State → Prop}
    (first : Triple during pre program mid)
    (second : ∀ value, Triple during (mid value) (next value) post) :
    Triple during pre (program >>= next) post := by
  intro script state before
  have met := first script state before
  change (program.andThen next script state).Meets during post
  unfold Program.andThen
  cases ran : program script state with
  | done value middle rest =>
      rw [ran] at met
      exact second value rest middle met
  | starved middle =>
      rw [ran] at met
      exact met
  | diverged => trivial

theorem call
    {answer : Reply → State → α × State} {post : α → State → Prop}
    (pending : ∀ state, pre state → during state)
    (answered : ∀ reply state, pre state → post (answer reply state).1 (answer reply state).2) :
    Triple during pre (Program.call answer) post := by
  intro script state before
  cases script with
  | nil => exact pending state before
  | cons reply rest => exact answered reply state before

theorem modify
    {change : State → State} {post : PUnit → State → Prop}
    (changed : ∀ state, pre state → post ⟨⟩ (change state)) :
    Triple during pre (Program.modify change : Program Reply State PUnit) post :=
  fun _ state before => changed state before

theorem loopFor
    {body : β → Program Reply State (β ⊕ α)} {invariant : β → State → Prop}
    {post : α → State → Prop}
    (turn : ∀ value, Triple during (invariant value) (body value) (Sum.elim invariant post))
    (fuel : Nat) (value : β) :
    Triple during (invariant value) (Program.loopFor body fuel value) post := by
  induction fuel generalizing value with
  | zero => exact fun _ _ _ => trivial
  | succ fuel inductionHypothesis =>
      intro script state before
      have met := turn value script state before
      unfold Program.loopFor
      cases ran : body value script state with
      | done result middle rest =>
          rw [ran] at met
          cases result with
          | inl value => exact inductionHypothesis value rest middle met
          | inr result => exact met
      | starved middle =>
          rw [ran] at met
          exact met
      | diverged => trivial

/-- What holds whenever the body is entered holds throughout a loop. -/
theorem loop
    {body : β → Program Reply State (β ⊕ α)} {invariant : β → State → Prop}
    {post : α → State → Prop}
    (turn : ∀ value, Triple during (invariant value) (body value) (Sum.elim invariant post))
    (value : β) :
    Triple during (invariant value) (Program.loop body value) post :=
  fun script => loopFor turn (script.length + 1) value script

theorem trivial (program : Program Reply State α) :
    Triple (fun _ => True) (fun _ => True) program (fun _ _ => True) := by
  intro script state _
  cases program script state with
  | done value after rest => exact True.intro
  | starved after => exact True.intro
  | diverged => exact True.intro

theorem weaken
    {program : Program Reply State α} {post post' : α → State → Prop}
    (triple : Triple during pre program post)
    (entails : ∀ state, pre' state → pre state)
    (weaker : ∀ value state, post value state → post' value state) :
    Triple during pre' program post' := by
  intro script state before
  have met := triple script state (entails state before)
  cases ran : program script state with
  | done value after rest =>
      rw [ran] at met
      exact weaker value after met
  | starved after =>
      rw [ran] at met
      exact met
  | diverged => trivial

end Triple

/-- The run did not diverge, and used up a reply if it returned a value that
satisfies `strict`. -/
def Outcome.Within (bound : Nat) (strict : α → Prop) : Outcome Reply State α → Prop
  | .done value _ rest => rest.length ≤ bound ∧ (strict value → rest.length < bound)
  | .starved _ => True
  | .diverged => False

/-- The program never diverges, and has made a call whenever it returns a value
that satisfies `strict`. -/
def Consumes (strict : α → Prop) (program : Program Reply State α) : Prop :=
  ∀ script state, (program script state).Within script.length strict

namespace Consumes

theorem ret
    {strict : α → Prop} {value : α} (loose : ¬ strict value) :
    Consumes strict (pure value : Program Reply State α) :=
  fun _ _ => ⟨Nat.le_refl _, fun required => absurd required loose⟩

theorem call
    (strict : α → Prop) (answer : Reply → State → α × State) :
    Consumes strict (Program.call answer) := by
  intro script state
  cases script with
  | nil => trivial
  | cons reply rest => exact ⟨Nat.le_succ _, fun _ => Nat.lt_succ_self _⟩

theorem modify
    (change : State → State) :
    Consumes (fun _ => False) (Program.modify change : Program Reply State PUnit) :=
  fun _ _ => ⟨Nat.le_refl _, False.elim⟩

theorem bind
    {program : Program Reply State α} {next : α → Program Reply State β}
    {made : α → Prop} {strict : β → Prop}
    (first : Consumes made program)
    (second : ∀ value, Consumes (fun result => strict result ∧ ¬ made value) (next value)) :
    Consumes strict (program >>= next) := by
  intro script state
  have within := first script state
  change (program.andThen next script state).Within script.length strict
  unfold Program.andThen
  cases ran : program script state with
  | diverged =>
      rw [ran] at within
      exact within
  | starved middle => trivial
  | done value middle left =>
      rw [ran] at within
      obtain ⟨fewer, strictlyFewer⟩ := within
      have within' := second value left middle
      show (next value left middle).Within script.length strict
      cases ran' : next value left middle with
      | diverged =>
          rw [ran'] at within'
          exact within'
      | starved after => trivial
      | done result after rest =>
          rw [ran'] at within'
          refine ⟨within'.1.trans fewer, ?_⟩
          intro required
          by_cases already : made value
          · exact within'.1.trans_lt (strictlyFewer already)
          · exact (within'.2 ⟨required, already⟩).trans_le fewer

theorem weaken
    {program : Program Reply State α} {strict strict' : α → Prop}
    (consumes : Consumes strict program) (stronger : ∀ value, strict' value → strict value) :
    Consumes strict' program := by
  intro script state
  have within := consumes script state
  cases ran : program script state with
  | diverged =>
      rw [ran] at within
      exact within
  | starved after => trivial
  | done value after rest =>
      rw [ran] at within
      exact ⟨within.1, fun required => within.2 (stronger value required)⟩

theorem call_bind
    {answer : Reply → State → α × State} {next : α → Program Reply State β} {strict : β → Prop}
    (ends : ∀ value, Consumes (fun _ => False) (next value)) :
    Consumes strict (Program.call answer >>= next) :=
  bind (call (fun _ => True) answer) fun value =>
    (ends value).weaken fun _ required => required.2 trivial

theorem ends_ret
    (value : α) : Consumes (fun _ => False) (pure value : Program Reply State α) :=
  ret id

theorem ends_bind
    {program : Program Reply State α} {next : α → Program Reply State β}
    (first : Consumes (fun _ => False) program)
    (second : ∀ value, Consumes (fun _ => False) (next value)) :
    Consumes (fun _ => False) (program >>= next) :=
  bind first fun value => (second value).weaken fun _ required => required.1

theorem loopFor
    {body : β → Program Reply State (β ⊕ α)} {strict : α → Prop}
    (turn : ∀ value, Consumes (Sum.elim (fun _ => True) strict) (body value))
    (fuel : Nat) (value : β) (script : List Reply) (state : State)
    (enough : script.length < fuel) :
    (Program.loopFor body fuel value script state).Within script.length strict := by
  induction fuel generalizing value script state with
  | zero => exact absurd enough (Nat.not_lt_zero _)
  | succ fuel inductionHypothesis =>
      have within := turn value script state
      unfold Program.loopFor
      cases ran : body value script state with
      | diverged =>
          rw [ran] at within
          exact within
      | starved middle => trivial
      | done result middle left =>
          rw [ran] at within
          cases result with
          | inr result => exact within
          | inl value =>
              have less : left.length < script.length := within.2 trivial
              have rest := inductionHypothesis value left middle
                (less.trans_le (Nat.le_of_lt_succ enough))
              show (Program.loopFor body fuel value left middle).Within script.length strict
              cases ran' : Program.loopFor body fuel value left middle with
              | diverged =>
                  rw [ran'] at rest
                  exact rest
              | starved after => trivial
              | done result after rest' =>
                  rw [ran'] at rest
                  exact ⟨(rest.1.trans_lt less).le, fun _ => rest.1.trans_lt less⟩

/-- A loop whose body makes a call whenever it continues ends. -/
theorem loop
    {body : β → Program Reply State (β ⊕ α)} {strict : α → Prop}
    (turn : ∀ value, Consumes (Sum.elim (fun _ => True) strict) (body value)) (value : β) :
    Consumes strict (Program.loop body value) :=
  fun script state => loopFor turn (script.length + 1) value script state (Nat.lt_succ_self _)

end Consumes

theorem Triple.reaches
    {during pre : State → Prop} {program : Program Reply State α} {post : α → State → Prop}
    {strict : α → Prop} (triple : Triple during pre program post)
    (consumes : Consumes strict program)
    (returned : ∀ value state, post value state → during state)
    (script : List Reply) {state : State} (before : pre state) :
    ∃ after, (program script state).state? = some after ∧ during after := by
  have met := triple script state before
  have within := consumes script state
  cases ran : program script state with
  | done value after rest =>
      rw [ran] at met
      exact ⟨after, rfl, returned value after met⟩
  | starved after =>
      rw [ran] at met
      exact ⟨after, rfl, met⟩
  | diverged =>
      rw [ran] at within
      exact within.elim

end Tpt
