import Tpt.ConnMgr.Pool

/-!
`conn_mgr_pool_try_pop` of `conn_mgr_pool.c`.

The mutex is held for the whole call, so the call is a function of the pool and
of what `conn_mgr_conn_new` returns each time.  The loop goes back to its test
after connecting, where the new connection is overwritten.
-/

namespace Tpt

namespace ConnMgr

universe u

variable {Conn : Type u}

/-- At most `fuel` tests of the loop of `conn_mgr_pool_try_pop`; `connNew` are
the results of `conn_mgr_conn_new` in turn. -/
def connMgrPoolTryPop : Nat → (Nat → Option Conn) → ConnMgrPool Conn →
    Option (Option Conn × ConnMgrPool Conn)
  | 0, _, _ => none
  | fuel + 1, connNew, pool =>
      match connMgrQueuePopHead pool.queue with
      | none => none
      | some (some conn, queue) => some (some conn, { pool with queue })
      | some (none, queue) =>
          if pool.size < pool.maxPoolSize then
            connMgrPoolTryPop fuel (fun call => connNew (call + 1))
              { pool with size := pool.size + 1, queue }
          else
            connMgrPoolTryPop fuel connNew { pool with queue }

/-- What a call should return: the first idle connection, else a new one if
there is room and the connect succeeds, else nothing. -/
def tryPopResult (idle : List Conn) (pool : ConnMgrPool Conn) (connNew : Option Conn) :
    Option Conn × UInt32 :=
  match idle with
  | conn :: _ => (some conn, pool.size)
  | [] =>
      if pool.size < pool.maxPoolSize then
        match connNew with
        | some conn => (some conn, pool.size + 1)
        | none => (none, pool.size)
      else
        (none, pool.size)

def TryPopReturns (idle : List Conn) (pool : ConnMgrPool Conn) (connNew : Nat → Option Conn) :
    Prop :=
  ∃ fuel conn after, connMgrPoolTryPop fuel connNew pool = some (conn, after) ∧
    (conn, after.size) = tryPopResult idle pool (connNew 0) ∧
    after.maxPoolSize = pool.maxPoolSize ∧ Represents after.queue idle.tail

theorem connMgrPoolTryPop_idle
    {pool : ConnMgrPool Conn} {conn : Conn} {rest : List Conn}
    (represents : Represents pool.queue (conn :: rest)) (connNew : Nat → Option Conn)
    (fuel : Nat) :
    ∃ queue, connMgrPoolTryPop (fuel + 1) connNew pool = some (some conn, { pool with queue }) ∧
      Represents queue rest := by
  obtain ⟨queue, popped, shorter⟩ := represents_popHead represents
  refine ⟨queue, ?_, shorter⟩
  simp only [connMgrPoolTryPop, popped, List.head?_cons]

/-- On an empty queue the loop turns for ever. -/
theorem connMgrPoolTryPop_empty
    {pool : ConnMgrPool Conn} (represents : Represents pool.queue [])
    (connNew : Nat → Option Conn) (fuel : Nat) :
    connMgrPoolTryPop fuel connNew pool = none := by
  induction fuel generalizing pool connNew with
  | zero => rfl
  | succ fuel inductionHypothesis =>
      obtain ⟨queue, popped, still⟩ := represents_popHead represents
      simp only [connMgrPoolTryPop, popped, List.head?_nil]
      split
      · exact inductionHypothesis still _
      · exact inductionHypothesis still _

/-- The call does what it should exactly on the pools with an idle
connection. -/
theorem try_pop_returns_iff
    {idle : List Conn} {pool : ConnMgrPool Conn} (represents : Represents pool.queue idle)
    (connNew : Nat → Option Conn) : TryPopReturns idle pool connNew ↔ idle ≠ [] := by
  constructor
  · rintro ⟨fuel, conn, after, returned, _⟩ rfl
    rw [connMgrPoolTryPop_empty represents] at returned
    cases returned
  · intro nonempty
    obtain ⟨conn, rest, rfl⟩ := List.exists_cons_of_ne_nil nonempty
    obtain ⟨queue, returned, shorter⟩ := connMgrPoolTryPop_idle represents connNew 0
    exact ⟨1, some conn, { pool with queue }, returned, rfl, rfl, shorter⟩

def poolOfOne (idle : Option Nat) : ConnMgrPool Nat :=
  connMgrPoolPush idle (some 0)
    (connMgrPoolNew 1 { items := fun _ => none, queue := { head := none, tail := none } })

theorem try_pop_returns_iff_one_idle :
    Represents (poolOfOne (some 7)).queue [7] ∧
      TryPopReturns [7] (poolOfOne (some 7)) (fun _ => none) := by
  have represents : Represents (poolOfOne (some 7)).queue [7] :=
    represents_pushHead (represents_init _) 7 rfl
  exact ⟨represents, (try_pop_returns_iff represents _).mpr (List.cons_ne_nil 7 [])⟩

/-- The pool is new and the server accepts every connection. -/
theorem try_pop_hangs_on_new_pool :
    Represents (poolOfOne none).queue [] ∧ (poolOfOne none).size < (poolOfOne none).maxPoolSize ∧
      ¬ TryPopReturns [] (poolOfOne none) (fun call => some call) := by
  have represents : Represents (poolOfOne none).queue [] := represents_init _
  refine ⟨represents, by decide, ?_⟩
  rintro ⟨fuel, conn, after, returned, _⟩
  rw [connMgrPoolTryPop_empty represents] at returned
  cases returned

end ConnMgr

end Tpt
