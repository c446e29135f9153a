import Mathlib.Tactic
import Tpt.EventServer.Model

/-!
The sessions of the server: each `conn_info` object that exists belongs to an
open socket, but for those that a failed `event_add` has left behind.
-/

namespace Tpt

namespace EventServer

/-- The session of an object; a leaked one has a socket that is closed. -/
structure Session where
  fd : Nat
  evRead : Nat
  evWrite : Nat
  leaked : Bool

def Session.socket (session : Session) : Option Nat :=
  if session.leaked then none else some session.fd

def Session.event (session : Session) : Callback → Nat
  | .recv => session.evRead
  | .send => session.evWrite

/-- What the server's ledgers say of the sessions, by their objects. -/
structure Inv (server : Server) (sessions : Nat → Option Session) : Prop where
  sockets : Handles.Kept server.sockets fun cinfo => (sessions cinfo).bind Session.socket
  infos : Handles.Kept server.infos fun cinfo => (sessions cinfo).map fun _ => cinfo
  events : Handles.Kept server.events fun key : Nat × Callback =>
    (sessions key.1).map (·.event key.2)
  closed : ∀ cinfo session, sessions cinfo = some session → session.leaked = true →
    server.sockets.destroys session.fd ≠ 0
  connInfo : ∀ cinfo session, sessions cinfo = some session →
    server.connInfo cinfo = ⟨session.evRead, session.evWrite⟩
  event : ∀ cinfo session callback, sessions cinfo = some session →
    server.event (session.event callback) = ⟨session.fd, callback, cinfo⟩
  added : ∀ number ∈ server.added, ∃ cinfo session callback, sessions cinfo = some session ∧
    session.leaked = false ∧ session.event callback = number

def HasLeak (sessions : Nat → Option Session) : Prop :=
  ∃ cinfo session, sessions cinfo = some session ∧ session.leaked = true

theorem hasLeak_create
    {sessions : Nat → Option Session} {cinfo : Nat} {session : Session}
    (nothing : sessions cinfo = none) :
    HasLeak (Function.update sessions cinfo (some session)) ↔
      HasLeak sessions ∨ session.leaked = true := by
  constructor
  · rintro ⟨other, later, found, leaked⟩
    rcases update_cases found with ⟨_, same⟩ | ⟨_, older⟩
    · obtain rfl := Option.some.inj same
      exact .inr leaked
    · exact .inl ⟨other, later, older, leaked⟩
  · rintro (⟨other, later, found, leaked⟩ | leaked)
    · have different : other ≠ cinfo := by
        rintro rfl
        cases nothing.symm.trans found
      exact ⟨other, later, (Function.update_of_ne different _ _).trans found, leaked⟩
    · exact ⟨cinfo, session, Function.update_self .., leaked⟩

theorem hasLeak_release
    {sessions : Nat → Option Session} {cinfo : Nat} {session : Session}
    (found : sessions cinfo = some session) (kept : session.leaked = false) :
    HasLeak (Function.update sessions cinfo none) ↔ HasLeak sessions := by
  constructor
  · rintro ⟨other, later, lookup, leaked⟩
    rcases update_cases lookup with ⟨_, none⟩ | ⟨_, older⟩
    · cases none
    · exact ⟨other, later, older, leaked⟩
  · rintro ⟨other, later, lookup, leaked⟩
    have different : other ≠ cinfo := by
      rintro rfl
      obtain rfl := Option.some.inj (found.symm.trans lookup)
      cases kept.symm.trans leaked
    exact ⟨other, later, (Function.update_of_ne different _ _).trans lookup, leaked⟩

section Updates

variable {sessions : Nat → Option Session} {cinfo : Nat} {new : Option Session}

theorem sockets_update :
    (fun other => (Function.update sessions cinfo new other).bind Session.socket) =
      Function.update (fun other => (sessions other).bind Session.socket) cinfo
        (new.bind Session.socket) :=
  funext (Function.apply_update (fun _ session => session.bind Session.socket) sessions cinfo new)

theorem infos_update :
    (fun other => (Function.update sessions cinfo new other).map fun _ => other) =
      Function.update (fun other => (sessions other).map fun _ => other) cinfo
        (new.map fun _ => cinfo) :=
  funext
    (Function.apply_update (fun other session => session.map fun _ => other) sessions cinfo new)

theorem events_update :
    (fun key : Nat × Callback =>
        (Function.update sessions cinfo new key.1).map (·.event key.2)) =
      Function.update
        (Function.update (fun key : Nat × Callback => (sessions key.1).map (·.event key.2))
          (cinfo, .recv) (new.map Session.evRead))
        (cinfo, .send) (new.map Session.evWrite) := by
  funext ⟨other, callback⟩
  by_cases same : other = cinfo
  · subst same
    cases callback <;> simp <;> rfl
  · have apart : ∀ kind, (other, callback) ≠ (cinfo, kind) :=
      fun kind equal => same (congrArg Prod.fst equal)
    rw [Function.update_of_ne (apart _), Function.update_of_ne (apart _)]
    exact congrArg (Option.map _) (Function.update_of_ne same _ _)

end Updates

section Steps

variable {server after : Server} {sessions : Nat → Option Session} {cinfo : Nat}
  {session : Session}

theorem Inv.next_none (inv : Inv server sessions) : sessions server.infos.made = none := by
  cases found : sessions server.infos.made with
  | none => rfl
  | some session =>
      have held : (sessions server.infos.made).map (fun _ => server.infos.made) =
          some server.infos.made := by rw [found]; rfl
      exact absurd (inv.infos.live _ _ held).1 (lt_irrefl _)

theorem Inv.event_lt
    (inv : Inv server sessions) (found : sessions cinfo = some session) (callback : Callback) :
    session.event callback < server.events.made := by
  refine (inv.events.live (cinfo, callback) _ ?_).1
  rw [found]
  rfl

theorem Inv.keep
    (inv : Inv server sessions) (sockets : Handles.Passing server.sockets after.sockets)
    (infos : Handles.Passing server.infos after.infos)
    (events : Handles.Passing server.events after.events)
    (connInfo : after.connInfo = server.connInfo)
    (event : ∀ number < server.events.made, after.event number = server.event number)
    (added : after.added ⊆ server.added) : Inv after sessions := by
  have nothing := inv.next_none
  refine ⟨?_, ?_, ?_, ?_, ?_, ?_, fun number member => inv.added number (added member)⟩
  · have idle : (sessions server.infos.made).bind Session.socket = none := by rw [nothing]; rfl
    exact inv.sockets.passing idle sockets
  · have idle : (sessions server.infos.made).map (fun _ => server.infos.made) = none := by
      rw [nothing]; rfl
    exact inv.infos.passing idle infos
  · have idle : (sessions server.infos.made).map (·.event .recv) = none := by rw [nothing]; rfl
    exact @Handles.Kept.passing _ _ _ _ (server.infos.made, .recv) _ inv.events idle events
  · exact fun cinfo session found leaked => sockets.ne_zero (inv.closed cinfo session found leaked)
  · intro cinfo session found
    rw [connInfo]
    exact inv.connInfo cinfo session found
  · intro cinfo session callback found
    rw [event _ (inv.event_lt found callback)]
    exact inv.event cinfo session callback found

def Server.nextSession (server : Server) (leaked : Bool) : Session :=
  ⟨server.sockets.made, server.events.made, server.events.made + 1, leaked⟩

theorem Inv.sockets_create (inv : Inv server sessions) (leaked : Bool) :
    Handles.Kept
      (if leaked then server.sockets.obtain.destroy server.sockets.made else server.sockets.obtain)
      fun other =>
        (Function.update sessions server.infos.made (some (server.nextSession leaked)) other).bind
          Session.socket := by
  have noSocket : (sessions server.infos.made).bind Session.socket = none := by
    rw [inv.next_none]
    rfl
  rw [sockets_update]
  cases leaked with
  | true =>
      have idle : Function.update (fun other => (sessions other).bind Session.socket)
          server.infos.made none = fun other => (sessions other).bind Session.socket := by
        rw [← noSocket, Function.update_eq_self]
      exact (congrArg (Handles.Kept _) idle).mpr (inv.sockets.obtain_destroy noSocket)
  | false => exact inv.sockets.obtain noSocket

theorem Inv.events_create (inv : Inv server sessions) (leaked : Bool) :
    Handles.Kept server.events.obtain.obtain fun key : Nat × Callback =>
      (Function.update sessions server.infos.made (some (server.nextSession leaked)) key.1).map
        (·.event key.2) := by
  have nothing := inv.next_none
  rw [events_update]
  have first := @Handles.Kept.obtain _ _ _ _ (server.infos.made, Callback.recv) inv.events
    (by rw [nothing]; rfl)
  refine @Handles.Kept.obtain _ _ _ _ (server.infos.made, Callback.send) first ?_
  rw [Function.update_of_ne (by simp), nothing]
  rfl

/-- The read event of a new session is registered unless the session is leaked. -/
theorem Inv.added_create
    (inv : Inv server sessions) (leaked : Bool) :
    ∀ number ∈ (if leaked then server.added else insert server.events.made server.added),
      ∃ cinfo session callback,
        Function.update sessions server.infos.made (some (server.nextSession leaked)) cinfo =
          some session ∧ session.leaked = false ∧ session.event callback = number := by
  have older : ∀ number ∈ server.added, ∃ cinfo session callback,
      Function.update sessions server.infos.made (some (server.nextSession leaked)) cinfo =
        some session ∧ session.leaked = false ∧ session.event callback = number := by
    intro number member
    obtain ⟨cinfo, session, callback, found, kept⟩ := inv.added number member
    have different : cinfo ≠ server.infos.made := by
      rintro rfl
      cases inv.next_none.symm.trans found
    exact ⟨cinfo, session, callback, (Function.update_of_ne different _ _).trans found, kept⟩
  intro number member
  cases leaked with
  | true => exact older number member
  | false =>
      rcases Finset.mem_insert.mp member with rfl | earlier
      · exact
          ⟨server.infos.made, server.nextSession false, .recv, Function.update_self .., rfl, rfl⟩
      · exact older number earlier

theorem Inv.create
    (inv : Inv server sessions) (leaked : Bool)
    (sockets : after.sockets =
      if leaked then server.sockets.obtain.destroy server.sockets.made
      else server.sockets.obtain)
    (infos : after.infos = server.infos.obtain)
    (events : after.events = server.events.obtain.obtain)
    (connInfo : after.connInfo = Function.update server.connInfo server.infos.made
      ⟨server.events.made, server.events.made + 1⟩)
    (event : after.event =
      Function.update
        (Function.update server.event server.events.made
          ⟨server.sockets.made, .recv, server.infos.made⟩)
        (server.events.made + 1) ⟨server.sockets.made, .send, server.infos.made⟩)
    (added : after.added =
      if leaked then server.added else insert server.events.made server.added) :
    Inv after (Function.update sessions server.infos.made (some (server.nextSession leaked))) := by
  refine ⟨sockets ▸ inv.sockets_create leaked, ?_, events ▸ inv.events_create leaked, ?_, ?_, ?_,
    added ▸ inv.added_create leaked⟩
  · rw [infos_update, infos]
    exact inv.infos.obtain (by rw [inv.next_none]; rfl)
  · intro cinfo session found isLeaked
    rcases update_cases found with ⟨_, same⟩ | ⟨_, older⟩
    · obtain rfl := Option.some.inj same
      have isTrue : leaked = true := isLeaked
      rw [sockets, if_pos isTrue]
      exact (Function.update_self ..).trans_ne (Nat.succ_ne_zero _)
    · have destroyed := inv.closed cinfo session older isLeaked
      rw [sockets]
      cases leaked with
      | true => exact @Handles.destroy_ne_zero server.sockets.obtain _ _ destroyed
      | false => exact destroyed
  · intro cinfo session found
    rw [connInfo]
    rcases update_cases found with ⟨rfl, same⟩ | ⟨different, older⟩
    · obtain rfl := Option.some.inj same
      rw [Function.update_self]
      rfl
    · rw [Function.update_of_ne different]
      exact inv.connInfo cinfo session older
  · intro cinfo session callback found
    rw [event]
    rcases update_cases found with ⟨rfl, same⟩ | ⟨_, older⟩
    · obtain rfl := Option.some.inj same
      cases callback with
      | recv =>
          have apart : server.events.made ≠ server.events.made + 1 :=
            Nat.ne_of_lt (Nat.lt_add_one _)
          exact (Function.update_of_ne apart _ _).trans (Function.update_self ..)
      | send => exact Function.update_self ..
    · have earlier := inv.event_lt older callback
      rw [Function.update_of_ne (by omega), Function.update_of_ne (by omega)]
      exact inv.event cinfo session callback older

theorem Inv.eventAdd
    (inv : Inv server sessions) (found : sessions cinfo = some session)
    (kept : session.leaked = false) (callback : Callback) :
    Inv (server.eventAdd (session.event callback)) sessions := by
  refine ⟨inv.sockets, inv.infos, inv.events, inv.closed, inv.connInfo, inv.event, ?_⟩
  intro number member
  rcases Finset.mem_insert.mp member with rfl | earlier
  · exact ⟨cinfo, session, callback, found, kept, rfl⟩
  · exact inv.added number earlier

theorem Inv.eventDel (inv : Inv server sessions) (number : Nat) :
    Inv (server.eventDel number) sessions :=
  inv.keep (.inl rfl) (.inl rfl) (.inl rfl) rfl (fun _ _ => rfl) (Finset.erase_subset _ _)

theorem Inv.release
    (inv : Inv server sessions) (found : sessions cinfo = some session)
    (kept : session.leaked = false) :
    Inv ((connInfoFree server cinfo).close session.fd) (Function.update sessions cinfo none) := by
  have info := inv.connInfo cinfo session found
  have others : ∀ {other later}, Function.update sessions cinfo none other = some later →
      other ≠ cinfo ∧ sessions other = some later := by
    intro other later lookup
    rcases update_cases lookup with ⟨_, none⟩ | kept
    · cases none
    · exact kept
  refine ⟨?_, ?_, ?_, ?_, ?_, ?_, ?_⟩
  · rw [sockets_update]
    refine inv.sockets.destroy ?_
    rw [found]
    exact if_neg (by rw [kept]; nofun)
  · rw [infos_update]
    refine inv.infos.destroy ?_
    rw [found]
    rfl
  · rw [events_update]
    have first := @Handles.Kept.destroy _ _ _ _ (cinfo, Callback.recv) session.evRead inv.events
      (by rw [found]; rfl)
    have second := @Handles.Kept.destroy _ _ _ _ (cinfo, Callback.send) session.evWrite first
      (by rw [Function.update_of_ne (by simp), found]; rfl)
    rw [connInfoFree, info]
    exact second
  · intro other later lookup leaked
    exact Handles.destroy_ne_zero _ (inv.closed other later (others lookup).2 leaked)
  · exact fun other later lookup => inv.connInfo other later (others lookup).2
  · exact fun other later callback lookup => inv.event other later callback (others lookup).2
  · intro number member
    rw [connInfoFree, info] at member
    obtain ⟨notWrite, notRead, earlier⟩ : number ≠ session.evWrite ∧ number ≠ session.evRead ∧
        number ∈ server.added := by
      simpa only [Finset.mem_erase, Server.close, Server.free, Server.eventFree, Server.eventDel]
        using member
    obtain ⟨other, later, callback, lookup, open_, same⟩ := inv.added number earlier
    have different : other ≠ cinfo := by
      rintro rfl
      obtain rfl := Option.some.inj (found.symm.trans lookup)
      cases callback with
      | recv => exact notRead same.symm
      | send => exact notWrite same.symm
    exact ⟨other, later, callback, (Function.update_of_ne different _ _).trans lookup, open_, same⟩

theorem Inv.cliRecvCb
    {results : List Recv} (inv : Inv server sessions) (found : sessions cinfo = some session)
    (kept : session.leaked = false)
    (called : cliRecvCb server session.fd cinfo results = some after) :
    Inv after sessions ∨ Inv after (Function.update sessions cinfo none) := by
  induction results generalizing server with
  | nil => cases called
  | cons result results inductionHypothesis =>
      have write : (server.connInfo cinfo).evWrite = session.evWrite :=
        congrArg ConnInfo.evWrite (inv.connInfo cinfo session found)
      cases result with
      | bytes added =>
          cases added with
          | true =>
              rw [EventServer.cliRecvCb, if_pos rfl, write] at called
              exact inductionHypothesis (inv.eventAdd found kept .send) called
          | false =>
              obtain rfl := Option.some.inj called
              exact .inr (inv.release found kept)
      | closed =>
          obtain rfl := Option.some.inj called
          exact .inr (inv.release found kept)
      | failed =>
          obtain rfl := Option.some.inj called
          exact .inl inv

theorem Inv.srvrAcceptCb (inv : Inv server sessions) (answers : AcceptAnswers) :
    (¬ Leaks (.accept answers) ∧ Inv (srvrAcceptCb server answers) sessions) ∨
      ∃ leaked, (leaked = true ↔ Leaks (.accept answers)) ∧
        Inv (srvrAcceptCb server answers)
          (Function.update sessions server.infos.made (some (server.nextSession leaked))) := by
  have sameEvent : ∀ number < server.events.made, ∀ event,
      Function.update server.event server.events.made event number = server.event number :=
    fun number below event => Function.update_of_ne (Nat.ne_of_lt below) _ _
  obtain ⟨accept, fcntl, ⟨malloc, evRead, evWrite⟩, eventAdd⟩ := answers
  cases accept with
  | false => exact .inl ⟨fun leaks => (nomatch leaks.1), inv⟩
  | true =>
  cases fcntl with
  | false =>
      refine .inl ⟨fun leaks => (nomatch leaks.2.1), ?_⟩
      exact inv.keep (.inr rfl) (.inl rfl) (.inl rfl) rfl (fun _ _ => rfl) subset_rfl
  | true =>
  cases malloc with
  | false =>
      refine .inl ⟨fun leaks => (nomatch leaks.2.2.1), ?_⟩
      exact inv.keep (.inr rfl) (.inl rfl) (.inl rfl) rfl (fun _ _ => rfl) subset_rfl
  | true =>
  cases evRead with
  | false =>
      refine .inl ⟨fun leaks => (nomatch leaks.2.2.1), ?_⟩
      exact inv.keep (.inr rfl) (.inr rfl) (.inl rfl) rfl (fun _ _ => rfl) subset_rfl
  | true =>
  cases evWrite with
  | false =>
      refine .inl ⟨fun leaks => (nomatch leaks.2.2.1), ?_⟩
      refine inv.keep (.inr rfl) (.inr rfl) (.inr rfl) rfl ?_ (Finset.erase_subset _ _)
      exact fun number below => sameEvent number below _
  | true =>
  cases eventAdd with
  | false =>
      refine .inr ⟨true, ⟨fun _ => ⟨rfl, rfl, rfl, rfl⟩, fun _ => rfl⟩, ?_⟩
      exact inv.create true rfl rfl rfl rfl rfl rfl
  | true =>
      refine .inr ⟨false, ⟨nofun, fun leaks => nomatch leaks.2.2.2⟩, ?_⟩
      have read : (Function.update server.connInfo server.infos.made
          ⟨server.events.made, server.events.made + 1⟩ server.infos.made).evRead =
          server.events.made := by rw [Function.update_self]
      exact inv.create false rfl rfl rfl rfl rfl (congrArg (insert · server.added) read)

/-- A step keeps the ledgers, and leaks if and only if its call does. -/
theorem Inv.step
    {call : Call} (inv : Inv server sessions) (stepped : step server call = some after) :
    ∃ sessions', Inv after sessions' ∧ (HasLeak sessions' ↔ HasLeak sessions ∨ Leaks call) := by
  cases call with
  | accept answers =>
      obtain rfl := Option.some.inj stepped
      rcases inv.srvrAcceptCb answers with ⟨clean, inv'⟩ | ⟨leaked, leaks, inv'⟩
      · exact ⟨sessions, inv', (or_iff_left clean).symm⟩
      · refine ⟨_, inv', ?_⟩
        rw [hasLeak_create inv.next_none, ← leaks]
        rfl
  | client number results =>
      obtain ⟨member, called⟩ := Option.ite_none_right_eq_some.mp stepped
      obtain ⟨cinfo, session, callback, found, kept, same⟩ := inv.added number member
      have event := inv.event cinfo session callback found
      rw [same] at event
      rw [event] at called
      cases callback with
      | send =>
          obtain rfl := Option.some.inj called
          exact ⟨sessions, inv.eventDel _, (or_iff_left id).symm⟩
      | recv =>
          rcases inv.cliRecvCb found kept called with inv' | inv'
          · exact ⟨sessions, inv', (or_iff_left id).symm⟩
          · refine ⟨_, inv', ?_⟩
            rw [hasLeak_release found kept]
            exact (or_iff_left id).symm

end Steps

theorem Inv.start : Inv initialServer fun _ => none :=
  ⟨.start, .start, .start, nofun, nofun, nofun, nofun⟩

theorem exists_inv
    {history : List Call} {server : Server} (run : Run history server) :
    ∃ sessions, Inv server sessions ∧ (HasLeak sessions ↔ ∃ call ∈ history, Leaks call) := by
  refine Trace.invariant (fun history server => ∃ sessions, Inv server sessions ∧
    (HasLeak sessions ↔ ∃ call ∈ history, Leaks call)) ?_ ?_ run
  · rintro server rfl
    refine ⟨fun _ => none, .start, ?_⟩
    constructor
    · rintro ⟨_, _, found, _⟩
      cases found
    · rintro ⟨call, member, _⟩
      cases member
  · rintro history before call after ⟨sessions, inv, leaks⟩ stepped
    obtain ⟨sessions', inv', leaks'⟩ := inv.step stepped
    refine ⟨sessions', inv', ?_⟩
    rw [leaks', leaks, List.exists_mem_cons_iff, or_comm]

section OneToOne

variable {server : Server} {sessions : Nat → Option Session}

theorem Inv.live_info (inv : Inv server sessions) (cinfo : Nat) :
    Live server.infos cinfo ↔ ∃ session, sessions cinfo = some session := by
  rw [Live, inv.infos.live_iff]
  constructor
  · rintro ⟨other, held⟩
    obtain ⟨session, found, same⟩ := Option.map_eq_some_iff.mp held
    exact ⟨session, same ▸ found⟩
  · rintro ⟨session, found⟩
    exact ⟨cinfo, by rw [found]; rfl⟩

theorem Inv.live_socket (inv : Inv server sessions) (fd : Nat) :
    Live server.sockets fd ↔
      ∃ cinfo session, sessions cinfo = some session ∧ session.socket = some fd := by
  rw [Live, inv.sockets.live_iff]
  exact exists_congr fun cinfo => Option.bind_eq_some_iff

theorem Inv.live_event (inv : Inv server sessions) (number : Nat) :
    Live server.events number ↔
      ∃ cinfo callback session, sessions cinfo = some session ∧
        session.event callback = number := by
  rw [Live, inv.events.live_iff, Prod.exists]
  exact exists₂_congr fun cinfo callback => Option.map_eq_some_iff

theorem Inv.fdOf
    {cinfo : Nat} {session : Session} (inv : Inv server sessions)
    (found : sessions cinfo = some session) : server.fdOf cinfo = session.fd := by
  rw [Server.fdOf, inv.connInfo cinfo session found]
  exact congrArg Event.fd (inv.event cinfo session .recv found)

theorem Inv.leak_not_oneToOne (inv : Inv server sessions) (leak : HasLeak sessions) :
    ¬ OneToOne server := by
  obtain ⟨cinfo, session, found, leaked⟩ := leak
  intro oneToOne
  have opened := oneToOne.opened cinfo ((inv.live_info cinfo).mpr ⟨session, found⟩)
  rw [inv.fdOf found] at opened
  exact inv.closed cinfo session found leaked opened.2

theorem Inv.oneToOne (inv : Inv server sessions) (clean : ¬ HasLeak sessions) :
    OneToOne server := by
  have open_ : ∀ {cinfo session}, sessions cinfo = some session →
      session.socket = some session.fd := by
    intro cinfo session found
    refine if_neg fun leaked => clean ⟨cinfo, session, found, leaked⟩
  refine ⟨?_, ?_, ?_, ?_, ?_⟩
  · intro handles member number
    simp only [List.mem_cons, List.not_mem_nil, or_false] at member
    rcases member with rfl | rfl | rfl
    · exact inv.sockets.destroys_le_one number
    · exact inv.infos.destroys_le_one number
    · exact inv.events.destroys_le_one number
  · intro cinfo live
    obtain ⟨session, found⟩ := (inv.live_info cinfo).mp live
    rw [inv.fdOf found, inv.connInfo cinfo session found]
    exact ⟨(inv.live_event _).mpr ⟨cinfo, .recv, session, found, rfl⟩,
      inv.event cinfo session .recv found,
      (inv.live_event _).mpr ⟨cinfo, .send, session, found, rfl⟩,
      inv.event cinfo session .send found⟩
  · intro number live
    obtain ⟨cinfo, callback, session, found, same⟩ := (inv.live_event number).mp live
    refine ⟨cinfo, (inv.live_info cinfo).mpr ⟨session, found⟩, ?_⟩
    rw [inv.connInfo cinfo session found]
    cases callback with
    | recv => exact .inl same
    | send => exact .inr same
  · intro cinfo live
    obtain ⟨session, found⟩ := (inv.live_info cinfo).mp live
    rw [inv.fdOf found]
    exact (inv.live_socket session.fd).mpr ⟨cinfo, session, found, open_ found⟩
  · intro fd live
    obtain ⟨cinfo, session, found, socket⟩ := (inv.live_socket fd).mp live
    have same : session.fd = fd := Option.some.inj ((open_ found).symm.trans socket)
    refine ⟨cinfo, ⟨(inv.live_info cinfo).mpr ⟨session, found⟩, (inv.fdOf found).trans same⟩, ?_⟩
    rintro other ⟨liveOther, sameOther⟩
    obtain ⟨later, foundOther⟩ := (inv.live_info other).mp liveOther
    rw [inv.fdOf foundOther] at sameOther
    refine inv.sockets.single other cinfo fd ?_ ?_
    · exact Option.bind_eq_some_iff.mpr
        ⟨later, foundOther, (open_ foundOther).trans (congrArg some sameOther)⟩
    · exact Option.bind_eq_some_iff.mpr ⟨session, found, socket⟩

theorem Inv.iff_noLeak (inv : Inv server sessions) : OneToOne server ↔ ¬ HasLeak sessions :=
  ⟨fun oneToOne leak => inv.leak_not_oneToOne leak oneToOne, inv.oneToOne⟩

end OneToOne

/-- The objects correspond to the open sockets if and only if no `event_add` has
failed for a client that had been set up. -/
theorem oneToOne_iff
    {history : List Call} {server : Server} (run : Run history server) :
    OneToOne server ↔ ∀ call ∈ history, ¬ Leaks call := by
  obtain ⟨sessions, inv, leaks⟩ := exists_inv run
  rw [inv.iff_noLeak, leaks]
  simp only [not_exists, not_and]

/-- The server after these calls, the newest first. -/
def served (history : List Call) : Server :=
  history.foldr (fun call server => (step server call).getD server) initialServer

def acceptAndClose : List Call :=
  [.client 0 [.bytes true, .closed], .accept ⟨true, true, ⟨true, true, true⟩, true⟩]

theorem oneToOne_iff_accept_and_close :
    OneToOne (served acceptAndClose) ↔ ∀ call ∈ acceptAndClose, ¬ Leaks call :=
  oneToOne_iff (.next (.next (.start rfl) rfl) rfl)

def acceptFails : List Call := [.accept ⟨true, true, ⟨true, true, true⟩, false⟩]

theorem failed_event_add_leaks :
    Run acceptFails (served acceptFails) ∧ Live (served acceptFails).infos 0 ∧
      (served acceptFails).sockets.destroys ((served acceptFails).fdOf 0) = 1 ∧
      ¬ OneToOne (served acceptFails) := by
  have live : Live (served acceptFails).infos 0 := by decide
  have closed : (served acceptFails).sockets.destroys ((served acceptFails).fdOf 0) = 1 := by decide
  refine ⟨.next (.start rfl) rfl, live, closed, fun oneToOne => ?_⟩
  have opened := (oneToOne.opened 0 live).2
  rw [closed] at opened
  cases opened

end EventServer

end Tpt
