import Tpt.Splice.Proxy
import Mathlib.Algebra.BigOperators.Group.Finset.Piecewise

/-!
How many descriptors the proxy has open, and those that it loses.

A descriptor is lost when `WorkQAdd` fails, or the set-up of a socket that was
created; nothing closes it again.
-/

namespace Tpt

namespace Splice

open FdTable

section Runs

variable {process : Process} {gSpliceSize : Nat} {proxy after : Proxy} {event : Event}
variable {history : List Event} {i count : Nat} {session next : Session} {deed : Deed}
variable {call : FdCall File}

theorem Session.leaked_le_holds
    (session : Session) (i : Nat) (accounted : session.Accounted gSpliceSize) :
    session.leaked ≤ (session.holds i).length := by
  unfold Session.leaked
  split_ifs with unqueued
  · rw [Session.holds, unqueued]
    exact le_refl 1
  · by_cases early : ∀ todo, session.phase ≠ .leaving todo
    · rw [accounted.lost early]
      exact Nat.zero_le _
    · simp only [ne_eq, Classical.not_forall, Classical.not_not] at early
      obtain ⟨todo, place⟩ := early
      rw [Session.holds, place, List.length_append, List.length_map]
      exact Nat.le_add_left _ _

theorem Session.holds_of_over
    (session : Session) (i : Nat) (accounted : session.Accounted gSpliceSize)
    (ended : session.phase.Over) : (session.holds i).length = session.leaked := by
  have lost := accounted.lost
  unfold Session.holds Session.leaked
  rcases ended with place | place | place | place <;> rw [place] at lost ⊢
  · rw [lost nofun]
    rfl
  · rw [lost nofun]
    rfl
  · rfl
  · rw [if_neg nofun]
    exact List.length_map _

theorem SessionStep.leaked
    (stepped : SessionStep i session deed call next) (accounted : session.Accounted gSpliceSize) :
    next.leaked = session.leaked + if (Event.session i deed call).loses then 1 else 0 := by
  have lost := accounted.lost
  unfold Session.leaked
  cases stepped with
  | workQError place =>
      rw [place] at lost ⊢
      rw [lost nofun]
      rfl
  | unconnected place =>
      rw [place] at lost ⊢
      rw [lost nofun]
      rfl
  | transfer => rfl
  | nonBlocking place | blocking place | refuse place | workQAdd place | start place
  | noSocket place | socket place | connected place | serverBlocking place
  | serverNonBlocking place | noPipe place | pipe place | returned place | close place
  | free place =>
      rw [place]
      rfl

theorem sum_sessions
    (measure : Session → Nat) (sessions : Nat → Session) (member : i < count)
    {gain : Nat} (gains : measure next = measure (sessions i) + gain) :
    ∑ other ∈ Finset.range count, measure (Function.update sessions i next other) =
      ∑ other ∈ Finset.range count, measure (sessions other) + gain := by
  have inside := Finset.mem_range.mpr member
  have others := Finset.add_sum_erase (Finset.range count) (fun other => measure (sessions other))
    inside
  have pushed : (fun other => measure (Function.update sessions i next other)) =
      Function.update (fun other => measure (sessions other)) i (measure next) :=
    Function.comp_update measure sessions i next
  rw [pushed, Finset.sum_update_of_mem inside, Finset.sdiff_singleton_eq_erase, gains, ← others]
  omega

theorem Sound.leaked_step
    (sound : Sound process gSpliceSize proxy) (stepped : Step process proxy event after) :
    after.leaked = proxy.leaked + if event.loses then 1 else 0 := by
  cases stepped with
  | @accept fd table _ _ =>
      rw [Proxy.leaked, Finset.sum_range_succ]
      dsimp only
      rw [Function.update_self]
      refine congrArg (· + 0) (Finset.sum_congr rfl fun i inside => ?_)
      rw [Function.update_of_ne (Nat.ne_of_lt (Finset.mem_range.mp inside))]
  | acceptError => rfl
  | @session i deed call session table stepped _ =>
      refine sum_sessions Session.leaked proxy.sessions ?_ (stepped.leaked (sound.accounted i))
      by_contra later
      rw [sound.absent i (Nat.le_of_not_lt later)] at stepped
      cases stepped <;> contradiction

theorem ProxyRun.leaked (run : ProxyRun process history proxy) :
    proxy.leaked = history.countP Event.loses := by
  induction run with
  | start begins =>
      rw [begins]
      rfl
  | next run stepped inductionHypothesis =>
      have sound := ProxyRun.sound run 0
      rw [sound.leaked_step stepped, inductionHypothesis, List.countP_cons]

theorem Sound.counted (sound : Sound process gSpliceSize proxy) :
    openCount process.limit proxy.table =
      process.inherited.length + 1 +
        ∑ i ∈ Finset.range proxy.count, ((proxy.sessions i).holds i).length := by
  rw [sound.owned.openCount_server proxy.count, Process.opened, List.length_cons, List.length_map]
  intro i outside
  rw [sound.absent i outside]
  rfl

theorem Sound.leaked_le
    (sound : Sound process gSpliceSize proxy) :
    process.inherited.length + 1 + proxy.leaked ≤ openCount process.limit proxy.table := by
  rw [sound.counted]
  refine Nat.add_le_add_left (Finset.sum_le_sum fun i _ => ?_) _
  exact Session.leaked_le_holds _ i (sound.accounted i)

/-- Whatever numbers the kernel gives out, and in whatever order the threads
run: every descriptor in a call of the proxy is open and stands for the file of
its own session that is meant, so that none is closed twice and none of another
session is read, written or closed; and the calls of every session that is done
are those of one call of `tunnel_the_request`. -/
theorem sessions_never_cross
    (run : ProxyRun process history proxy) (gSpliceSize : Nat) :
    (∀ event after, Step process proxy event after →
      ∀ fd file, (fd, file) ∈ event.names process → proxy.table fd = some file) ∧
    (∀ i, (proxy.sessions i).phase = .leaving [] →
      ∃ setup script, tunnelTheRequest gSpliceSize setup script
        { clientSocket := (proxy.sessions i).info.clientSocket, osSocket := 0 } =
          some (proxy.sessions i).fds) := by
  have sound := run.sound gSpliceSize
  constructor
  · intro event after stepped fd file named
    exact sound.named stepped named
  · intro i ended
    have accounted := sound.accounted i
    rw [Session.Accounted, ended] at accounted
    exact accounted

theorem small_within : ∀ fd ∈ [3, 0, 1, 2], fd < 5 := by
  intro fd member
  simp only [List.mem_cons, List.not_mem_nil, or_false] at member
  omega

theorem small_distinct : [3, 0, 1, 2].Nodup := by
  simp

def small : Process where
  listener := 3
  inherited := [0, 1, 2]
  limit := 5
  distinct := small_distinct
  within := small_within

theorem small_accepts :
    Step small (.start small) (.accept 4)
      { table := (Proxy.start small).table.install [(4, .client 0)]
        sessions := Function.update (Proxy.start small).sessions 0 (.accepted 4)
        count := 1 } := by
  refine .accept ?_ (.opens (List.nodup_singleton _) ?_)
  · rintro i (place | place | place) <;> cases place
  · intro fd member
    cases List.mem_singleton.mp member
    exact ⟨by decide, rfl⟩

/-- A session without a socket for its server, before it is closed and after
`free`. -/
theorem sessions_never_cross_one_session :
    (∃ history proxy, ProxyRun small history proxy ∧ proxy.table 4 = some (.client 0)) ∧
      ∃ history proxy, ProxyRun small history proxy ∧ proxy.table 4 = none ∧
        ∃ setup script, tunnelTheRequest 4096 setup script
          { clientSocket := 4, osSocket := 0 } = some (proxy.sessions 0).fds := by
  have accepted : ProxyRun small _ _ := .next (.start rfl) small_accepts
  have ready := accepted.next (.session (i := 0) (.nonBlocking rfl) .uses)
  have queued := ready.next (.session (i := 0) (.workQAdd rfl) .uses)
  have entered := queued.next (.session (i := 0) (.start rfl) .uses)
  have leaving := entered.next (.session (i := 0) (.noSocket rfl) .uses)
  have closed := leaving.next (.session (i := 0) (.close rfl) .closes)
  have freed := closed.next (.session (i := 0) (.free rfl) .uses)
  obtain ⟨named, _⟩ := sessions_never_cross leaving 4096
  obtain ⟨_, ended⟩ := sessions_never_cross freed 4096
  have meant : _ = some (File.client 0) :=
    named _ _ (.session (i := 0) (.close rfl) .closes) 4 _ (List.mem_singleton.mpr rfl)
  exact ⟨⟨_, _, leaving, meant⟩, _, _, freed, rfl, ended 0 rfl⟩

/-- The descriptors that are open when no session has anything left to do are
those from before the loop and one for each failure of `WorkQAdd` or of the
set-up of a socket.  When these fill the table, no descriptor is ever created
again. -/
theorem lost_descriptors_stay
    (run : ProxyRun process history proxy) :
    ((∀ i, (proxy.sessions i).phase.Over) →
      openCount process.limit proxy.table =
        process.inherited.length + 1 + history.countP Event.loses) ∧
    process.inherited.length + 1 + history.countP Event.loses ≤ process.limit ∧
    (process.inherited.length + 1 + history.countP Event.loses = process.limit →
      ∀ onward later, Trace (fun before => before = proxy) (Step process) onward later →
        ∀ event ∈ onward, event.creates = 0) := by
  have within : ∀ {history proxy}, ProxyRun process history proxy →
      process.inherited.length + 1 + history.countP Event.loses ≤
        openCount process.limit proxy.table := by
    intro history proxy run
    rw [← run.leaked]
    exact (run.sound 0).leaked_le
  refine ⟨?_, (within run).trans (openCount_le _ _), ?_⟩
  · intro ended
    have sound := run.sound 0
    rw [sound.counted, ← run.leaked]
    refine congrArg _ (Finset.sum_congr rfl fun i _ => ?_)
    exact Session.holds_of_over _ i (sound.accounted i) (ended i)
  · intro full onward later further
    induction further with
    | start => exact fun _ none => absurd none List.not_mem_nil
    | @next onward state event after further stepped inductionHypothesis =>
        have filled := within (Trace.append run further)
        rw [List.countP_append] at filled
        have crowded : ¬ openCount process.limit state.table < process.limit := by omega
        intro other member
        rcases List.mem_cons.mp member with rfl | earlier
        · cases stepped with
          | accept _ answered => exact absurd (answered.room (List.cons_ne_nil _ _)) crowded
          | acceptError => rfl
          | @session i deed call session table _ answered =>
              cases call with
              | opens created =>
                  by_contra some_left
                  exact crowded (answered.room fun none => some_left (by rw [none]; rfl))
              | uses | closes => rfl
        · exact inductionHypothesis other earlier

/-- The work queue refuses the one session that there was room for. -/
theorem lost_descriptors_stay_one_session :
    ∃ history proxy, ProxyRun small history proxy ∧
      openCount 5 proxy.table = 3 + 1 + 1 ∧
      ∀ onward later, Trace (fun before => before = proxy) (Step small) onward later →
        ∀ event ∈ onward, event.creates = 0 := by
  have accepted : ProxyRun small _ _ := .next (.start rfl) small_accepts
  have ready := accepted.next (.session (i := 0) (.nonBlocking rfl) .uses)
  have unqueued := ready.next (.session (i := 0) (.workQError rfl) .uses)
  obtain ⟨counted, _, full⟩ := lost_descriptors_stay unqueued
  refine ⟨_, _, unqueued, counted ?_, full rfl⟩
  intro i
  by_cases first : i = 0
  · subst first
    exact .inr (.inr (.inl rfl))
  · left
    simp only [Function.update_of_ne first]
    rfl

end Runs

end Splice

end Tpt
