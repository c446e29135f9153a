import Tpt.UnixSock.Server

/-!
Which connection a handler of the echo server works on.

The cell is written for the next handler while earlier ones may still read it.
Every session stays on its own connection in the runs where it is not.
-/

namespace Tpt

namespace UnixSock

/-- The connection that `main` has accepted and not yet given to a handler. -/
def MainPlace.pending : MainPlace → Option Nat
  | .store _ conn => conn
  | .create conn => conn
  | _ => none

def closes (journal : List Op) (conn : Nat) : Nat :=
  journal.countP fun op => op.kind = .close ∧ op.target = some conn

/-- Every call of a handler was on the connection it was created for; every
accepted connection has one handler, or is about to get it; and the handler has
closed it once when it is past its `close`. -/
structure Isolated (server : Server) : Prop where
  own : ∀ op ∈ server.journal, ∃ handler, server.handlers op.handler = some handler ∧
    op.target = handler.conn
  handled : ∀ conn, conn < server.accepted → server.main.pending = some conn ∨
    ∃ index handler, server.handlers index = some handler ∧ handler.conn = some conn
  single : ∀ index other handler handler' conn, server.handlers index = some handler →
    server.handlers other = some handler' → handler.conn = some conn →
    handler'.conn = some conn → index = other
  closed : ∀ index handler conn, server.handlers index = some handler →
    handler.conn = some conn → closes server.journal conn = if handler.place.closed then 1 else 0

/-- The cell is written when no handler will load it any more, and a handler is
created for every accepted connection. -/
def Careful (server : Server) : Event → Prop
  | .store => ∀ index handler, server.handlers index = some handler →
      handler.place.accesses = false
  | .create succeeds => succeeds = true ∨ server.main.pending = none
  | _ => True

def ServerRun : List Event → Server → Prop :=
  Trace (fun server => server = Server.start)
    (fun server event after => serverStep server event = some after)

def CarefulRun : List Event → Server → Prop :=
  Trace (fun server => server = Server.start)
    (fun server event after => serverStep server event = some after ∧ Careful server event)

/-- A descriptor is open on a connection, or is `-1` for none. -/
def Refers (fds : Int → Option Nat) (fd : Int) : Option Nat → Prop
  | some conn => fds fd = some conn
  | none => fd < 0

def MainReady (server : Server) : Prop :=
  match server.main with
  | .store fd conn => Refers server.fds fd conn
  | .create conn => Refers server.fds server.cliSock conn ∧
      ∀ index handler, server.handlers index = some handler → handler.place.accesses = false
  | _ => True

structure Inv (server : Server) : Prop where
  isolated : Isolated server
  negative : ∀ fd, fd < 0 → server.fds fd = none
  fresh : ∀ index, server.created ≤ index → server.handlers index = none
  counted : ∀ index handler conn, server.handlers index = some handler →
    handler.conn = some conn → conn < server.accepted
  pending : ∀ conn, server.main.pending = some conn → conn < server.accepted ∧
    closes server.journal conn = 0 ∧
    ∀ index handler, server.handlers index = some handler → handler.conn ≠ some conn
  unseen : ∀ conn, server.accepted ≤ conn → closes server.journal conn = 0
  cell : ∀ index handler, server.handlers index = some handler →
    handler.place.accesses = true → Refers server.fds server.cliSock handler.conn
  loaded : ∀ index handler fd, server.handlers index = some handler →
    handler.place.loaded = some fd → Refers server.fds fd handler.conn
  main : MainReady server

section Descriptors

variable {fds : Int → Option Nat} {fd other : Int} {conn conn' : Option Nat}

theorem Refers.target
    (refers : Refers fds fd conn) (negative : ∀ fd, fd < 0 → fds fd = none) :
    fds fd = conn := by
  cases conn with
  | some conn => exact refers
  | none => exact negative fd refers

theorem Refers.opened
    (refers : Refers fds fd conn) (unused : fds other = none) (new : Option Nat) :
    Refers (Function.update fds other new) fd conn := by
  cases conn with
  | none => exact refers
  | some conn =>
      have different : fd ≠ other := by
        rintro rfl
        cases unused.symm.trans refers
      exact (Function.update_of_ne different _ _).trans refers

theorem Refers.closed
    (refers : Refers fds fd conn) (closing : fds other = conn')
    (different : conn = conn' → conn = none) :
    Refers (Function.update fds other none) fd conn := by
  cases conn with
  | none => exact refers
  | some conn =>
      have apart : fd ≠ other := by
        rintro rfl
        cases different (Eq.trans (Eq.symm refers) closing)
      exact (Function.update_of_ne apart _ _).trans refers

end Descriptors

section Handlers

variable {server after : Server} {index : Nat} {handler handler' : Handler}

structure Moved (server after : Server) (index : Nat) (handler handler' : Handler) : Prop where
  found : server.handlers index = some handler
  handlers : after.handlers = Function.update server.handlers index (some handler')
  conn : handler'.conn = handler.conn
  accepted : after.accepted = server.accepted
  created : after.created = server.created
  main : after.main = server.main
  cliSock : after.cliSock = server.cliSock

namespace Moved

theorem cases
    (moved : Moved server after index handler handler') {other : Nat} {found : Handler}
    (lookup : after.handlers other = some found) :
    (other = index ∧ found = handler') ∨ (other ≠ index ∧ server.handlers other = some found) := by
  rw [moved.handlers] at lookup
  rcases update_cases lookup with ⟨same, new⟩ | old
  · exact .inl ⟨same, (Option.some.inj new).symm⟩
  · exact .inr old

theorem before
    (moved : Moved server after index handler handler') {other : Nat} {found : Handler}
    (lookup : after.handlers other = some found) :
    ∃ earlier, server.handlers other = some earlier ∧ earlier.conn = found.conn := by
  rcases moved.cases lookup with ⟨rfl, rfl⟩ | ⟨_, lookup⟩
  · exact ⟨handler, moved.found, moved.conn.symm⟩
  · exact ⟨found, lookup, rfl⟩

theorem later
    (moved : Moved server after index handler handler') {other : Nat} {found : Handler}
    (lookup : server.handlers other = some found) :
    ∃ later, after.handlers other = some later ∧ later.conn = found.conn := by
  rw [moved.handlers]
  by_cases same : other = index
  · subst same
    obtain rfl := Option.some.inj (moved.found.symm.trans lookup)
    exact ⟨handler', Function.update_self .., moved.conn⟩
  · exact ⟨found, (Function.update_of_ne same _ _).trans lookup, rfl⟩

theorem fresh
    (moved : Moved server after index handler handler')
    (fresh : ∀ other, server.created ≤ other → server.handlers other = none)
    {other : Nat} (unused : after.created ≤ other) : after.handlers other = none := by
  rw [moved.created] at unused
  have different : other ≠ index := by
    rintro rfl
    cases moved.found.symm.trans (fresh other unused)
  rw [moved.handlers, Function.update_of_ne different]
  exact fresh other unused

theorem unhandled
    (moved : Moved server after index handler handler') {conn : Nat}
    (unhandled : ∀ index handler, server.handlers index = some handler →
      handler.conn ≠ some conn)
    {other : Nat} {found : Handler} (lookup : after.handlers other = some found) :
    found.conn ≠ some conn := by
  obtain ⟨earlier, before, same⟩ := moved.before lookup
  rw [← same]
  exact unhandled other earlier before

end Moved

/-- What a move leaves of the invariant, whatever happens to the descriptors:
the journal grows by calls of handlers on their own connections. -/
theorem Isolated.moved
    (isolated : Isolated server) (moved : Moved server after index handler handler')
    (own : ∀ op ∈ after.journal, op ∈ server.journal ∨
      (op.handler = index ∧ op.target = handler.conn))
    (closed : ∀ index handler conn, after.handlers index = some handler →
      handler.conn = some conn →
      closes after.journal conn = if handler.place.closed then 1 else 0) :
    Isolated after where
  own op member := by
    rcases own op member with earlier | ⟨rfl, target⟩
    · obtain ⟨found, lookup, target⟩ := isolated.own op earlier
      obtain ⟨later, lookup', same⟩ := moved.later lookup
      exact ⟨later, lookup', target.trans same.symm⟩
    · obtain ⟨later, lookup, same⟩ := moved.later moved.found
      exact ⟨later, lookup, target.trans same.symm⟩
  handled conn accepted := by
    rw [moved.accepted] at accepted
    rw [moved.main]
    rcases isolated.handled conn accepted with waiting | ⟨other, found, lookup, same⟩
    · exact .inl waiting
    · obtain ⟨later, lookup', same'⟩ := moved.later lookup
      exact .inr ⟨other, later, lookup', same'.trans same⟩
  single first second found found' conn lookup lookup' same same' := by
    obtain ⟨earlier, before, conn₁⟩ := moved.before lookup
    obtain ⟨earlier', before', conn₂⟩ := moved.before lookup'
    exact isolated.single first second earlier earlier' conn before before' (conn₁.trans same)
      (conn₂.trans same')
  closed := closed

theorem Inv.moved
    (inv : Inv server) (moved : Moved server after index handler handler')
    (fds : after.fds = server.fds)
    (own : ∀ op ∈ after.journal, op ∈ server.journal ∨
      (op.handler = index ∧ op.target = handler.conn))
    (quiet : ∀ conn, closes after.journal conn = closes server.journal conn)
    (closed : handler'.place.closed = handler.place.closed)
    (accesses : handler'.place.accesses = true → handler.place.accesses = true)
    (loaded : ∀ fd, handler'.place.loaded = some fd → Refers server.fds fd handler.conn) :
    Inv after where
  isolated := by
    refine inv.isolated.moved moved own ?_
    intro other found conn lookup same
    rw [quiet conn]
    rcases moved.cases lookup with ⟨rfl, rfl⟩ | ⟨_, lookup⟩
    · rw [closed]
      exact inv.isolated.closed _ _ conn moved.found (moved.conn.symm.trans same)
    · exact inv.isolated.closed _ _ conn lookup same
  negative := by
    rw [fds]
    exact inv.negative
  fresh _ unused := moved.fresh inv.fresh unused
  counted other found conn lookup same := by
    obtain ⟨earlier, before, conn'⟩ := moved.before lookup
    rw [moved.accepted]
    exact inv.counted other earlier conn before (conn'.trans same)
  pending conn waiting := by
    rw [moved.main] at waiting
    obtain ⟨accepted, unclosed, unhandled⟩ := inv.pending conn waiting
    rw [moved.accepted, quiet conn]
    exact ⟨accepted, unclosed, fun _ _ lookup => moved.unhandled unhandled lookup⟩
  unseen conn later := by
    rw [moved.accepted] at later
    rw [quiet conn]
    exact inv.unseen conn later
  cell other found lookup access := by
    rw [fds, moved.cliSock]
    rcases moved.cases lookup with ⟨rfl, rfl⟩ | ⟨_, lookup⟩
    · rw [moved.conn]
      exact inv.cell _ _ moved.found (accesses access)
    · exact inv.cell _ _ lookup access
  loaded other found fd lookup holds := by
    rw [fds]
    rcases moved.cases lookup with ⟨rfl, rfl⟩ | ⟨_, lookup⟩
    · rw [moved.conn]
      exact loaded fd holds
    · exact inv.loaded _ _ fd lookup holds
  main := by
    have ready := inv.main
    unfold MainReady at ready ⊢
    rw [moved.main, fds, moved.cliSock]
    split at ready
    case h_1 => exact ready
    case h_2 =>
      refine ⟨ready.1, ?_⟩
      intro other found lookup
      rcases moved.cases lookup with ⟨rfl, rfl⟩ | ⟨_, lookup⟩
      · cases access : found.place.accesses with
        | false => rfl
        | true => exact (accesses access).symm.trans (ready.2 _ _ moved.found)
      · exact ready.2 _ _ lookup
    case h_3 => trivial

theorem closes_close
    (journal : List Op) (index conn : Nat) (target : Option Nat) :
    closes (⟨index, .close, target⟩ :: journal) conn =
      closes journal conn + if target = some conn then 1 else 0 := by
  simp [closes, List.countP_cons]

/-- Two handlers on one connection are on none. -/
theorem Isolated.unshared
    (isolated : Isolated server) (found : server.handlers index = some handler)
    {other : Nat} (lookup : server.handlers other = some handler') (different : other ≠ index)
    (same : handler'.conn = handler.conn) : handler'.conn = none := by
  cases conn : handler'.conn with
  | none => rfl
  | some conn' =>
      have same : handler.conn = some conn' := same.symm.trans conn
      exact absurd (isolated.single _ _ _ _ conn' lookup found conn same) different

theorem Inv.pending_unshared
    (inv : Inv server) (found : server.handlers index = some handler)
    (same : server.main.pending = handler.conn) : server.main.pending = none := by
  cases waiting : server.main.pending with
  | none => rfl
  | some conn =>
      have same : handler.conn = some conn := same.symm.trans waiting
      exact absurd same ((inv.pending conn waiting).2.2 index handler found)

theorem Inv.close_isolated
    {fd : Int} (inv : Inv server) (found : server.handlers index = some handler)
    (place : handler.place = .close fd) (target : server.fds fd = handler.conn)
    (moved : Moved server (server.closeReturned index handler fd) index handler
      { handler with place := .uncount })
    (count : ∀ conn, closes (server.closeReturned index handler fd).journal conn =
      closes server.journal conn + if handler.conn = some conn then 1 else 0) :
    Isolated (server.closeReturned index handler fd) := by
  refine inv.isolated.moved moved ?_ ?_
  · intro op member
    rcases List.mem_cons.mp member with rfl | earlier
    · exact .inr ⟨rfl, target⟩
    · exact .inl earlier
  · intro other found' conn lookup same
    rw [count conn]
    rcases moved.cases lookup with ⟨rfl, rfl⟩ | ⟨different, lookup⟩
    · rw [inv.isolated.closed _ _ conn found same, if_pos same, place]
      rfl
    · have elsewhere : handler.conn ≠ some conn := by
        intro closing
        have unshared :=
          inv.isolated.unshared found lookup different (same.trans closing.symm)
        cases same.symm.trans unshared
      rw [if_neg elsewhere]
      exact inv.isolated.closed _ _ conn lookup same

theorem Inv.close
    {fd : Int} (inv : Inv server) (found : server.handlers index = some handler)
    (place : handler.place = .close fd) : Inv (server.closeReturned index handler fd) := by
  have refers : Refers server.fds fd handler.conn :=
    inv.loaded index handler fd found (by rw [place]; rfl)
  have target : server.fds fd = handler.conn := refers.target inv.negative
  have moved : Moved server (server.closeReturned index handler fd) index handler
      { handler with place := .uncount } := ⟨found, rfl, rfl, rfl, rfl, rfl, rfl⟩
  have count : ∀ conn, closes (server.closeReturned index handler fd).journal conn =
      closes server.journal conn + if handler.conn = some conn then 1 else 0 := by
    intro conn
    rw [← target]
    exact closes_close server.journal index conn (server.fds fd)
  have elsewhere : ∀ {other : Int} {conn : Option Nat}, Refers server.fds other conn →
      (conn = handler.conn → conn = none) →
      Refers (server.closeReturned index handler fd).fds other conn := by
    intro other conn refers different
    exact refers.closed target different
  constructor
  case isolated => exact inv.close_isolated found place target moved count
  case negative =>
    intro other below
    by_cases same : other = fd
    · rw [same]
      exact Function.update_self ..
    · exact (Function.update_of_ne same _ _).trans (inv.negative other below)
  case fresh => exact fun _ unused => moved.fresh inv.fresh unused
  case counted =>
    intro other found' conn lookup same
    obtain ⟨earlier, before, conn'⟩ := moved.before lookup
    exact inv.counted other earlier conn before (conn'.trans same)
  case pending =>
    intro conn waiting
    obtain ⟨accepted, unclosed, unhandled⟩ := inv.pending conn waiting
    refine ⟨accepted, ?_, fun _ _ lookup => moved.unhandled unhandled lookup⟩
    rw [count conn, if_neg (unhandled index handler found), unclosed]
  case unseen =>
    intro conn later
    have accepted : handler.conn ≠ some conn := by
      intro same
      exact absurd (inv.counted index handler conn found same) (Nat.not_lt.mpr later)
    rw [count conn, if_neg accepted]
    exact inv.unseen conn later
  case cell =>
    intro other found' lookup access
    rcases moved.cases lookup with ⟨rfl, rfl⟩ | ⟨different, lookup⟩
    · cases access
    · exact elsewhere (inv.cell _ _ lookup access)
        (inv.isolated.unshared found lookup different)
  case loaded =>
    intro other found' fd' lookup holds
    rcases moved.cases lookup with ⟨rfl, rfl⟩ | ⟨different, lookup⟩
    · cases holds
    · exact elsewhere (inv.loaded _ _ fd' lookup holds)
        (inv.isolated.unshared found lookup different)
  case main =>
    have ready := inv.main
    have unshared := inv.pending_unshared found
    unfold MainReady at ready ⊢
    rw [moved.main]
    split at ready
    case h_1 fd' conn main =>
      rw [main] at unshared
      exact elsewhere ready unshared
    case h_2 conn main =>
      rw [main] at unshared
      refine ⟨elsewhere ready.1 unshared, ?_⟩
      intro other found' lookup
      rcases moved.cases lookup with ⟨rfl, rfl⟩ | ⟨_, lookup⟩
      · rfl
      · exact ready.2 _ _ lookup
    case h_3 => trivial

theorem Inv.handler_step
    (inv : Inv server) (found : server.handlers index = some handler)
    (stepped : HandlerStep server index handler after) : Inv after := by
  cases stepped with
  | @load place access unclosed loads closed =>
      have moved : Moved server (server.setPlace index handler place) index handler
          { handler with place } := ⟨found, rfl, rfl, rfl, rfl, rfl, rfl⟩
      refine inv.moved moved rfl (fun _ member => .inl member) (fun _ => rfl)
        (closed.trans unclosed.symm) (fun _ => access) ?_
      intro fd loaded
      obtain rfl := Option.some.inj (loads.symm.trans loaded)
      exact inv.cell index handler found access
  | @transfer kind fd place buf access loads unclosed different access' unloaded closed =>
      have moved : Moved server
          ((server.log index kind fd).setPlace index { handler with buf } place) index handler
          { handler with buf, place } := ⟨found, rfl, rfl, rfl, rfl, rfl, rfl⟩
      refine inv.moved moved rfl ?_ ?_ (closed.trans unclosed.symm) (fun _ => access) ?_
      · intro op member
        rcases List.mem_cons.mp member with rfl | earlier
        · exact .inr ⟨rfl, (inv.loaded index handler fd found loads).target inv.negative⟩
        · exact .inl earlier
      · intro conn
        exact List.countP_cons_of_neg (by simp [different])
      · intro fd' loaded
        cases unloaded.symm.trans loaded
  | close place => exact inv.close found place
  | uncount place =>
      have moved : Moved server
          { server.setPlace index handler .finished with clientCount := server.clientCount - 1 }
          index handler { handler with place := .finished } := ⟨found, rfl, rfl, rfl, rfl, rfl, rfl⟩
      refine inv.moved moved rfl (fun _ member => .inl member) (fun _ => rfl) ?_ nofun nofun
      rw [place]
      rfl

end Handlers

section Main

variable {server after : Server} {event : Event} {history : List Event}

theorem Inv.start : Inv Server.start where
  isolated := ⟨nofun, nofun, nofun, nofun⟩
  negative _ _ := rfl
  fresh _ _ := rfl
  counted := nofun
  pending := nofun
  unseen _ _ := rfl
  cell := nofun
  loaded := nofun
  main := trivial

theorem Inv.accepted
    {fd : Int} (inv : Inv server) (main : server.main = .accept) (nonnegative : 0 ≤ fd)
    (unused : server.fds fd = none) :
    Inv { server with
      main := .store fd (some server.accepted)
      fds := Function.update server.fds fd (some server.accepted)
      accepted := server.accepted + 1 } where
  isolated := by
    refine ⟨inv.isolated.own, ?_, inv.isolated.single, inv.isolated.closed⟩
    intro conn accepted
    rcases Nat.lt_succ_iff_lt_or_eq.mp accepted with earlier | rfl
    · rcases inv.isolated.handled conn earlier with waiting | handled
      · rw [main] at waiting
        cases waiting
      · exact .inr handled
    · exact .inl rfl
  negative other below := by
    have different : other ≠ fd := ne_of_lt (below.trans_le nonnegative)
    exact (Function.update_of_ne different _ _).trans (inv.negative other below)
  fresh := inv.fresh
  counted index handler conn found same :=
    Nat.lt_succ_of_lt (inv.counted index handler conn found same)
  pending conn waiting := by
    obtain rfl := Option.some.inj waiting
    refine ⟨Nat.lt_succ_self _, inv.unseen _ (le_refl _), ?_⟩
    intro index handler found same
    exact absurd (inv.counted index handler _ found same) (Nat.lt_irrefl _)
  unseen conn later := inv.unseen conn (Nat.le_of_succ_le later)
  cell index handler found access := (inv.cell index handler found access).opened unused _
  loaded index handler fd' found holds := (inv.loaded index handler fd' found holds).opened unused _
  main := Function.update_self ..

theorem created_cases
    {conn : Option Nat} {index : Nat} {handler : Handler}
    (lookup : (server.pthreadCreate conn true).handlers index = some handler) :
    (index = server.created ∧
      handler = { conn, place := .beforeRecv, buf := List.replicate bufSize 0 }) ∨
      (index ≠ server.created ∧ server.handlers index = some handler) := by
  rcases update_cases lookup with ⟨same, new⟩ | old
  · exact .inl ⟨same, (Option.some.inj new).symm⟩
  · exact .inr old

theorem Inv.created_isolated
    {conn : Option Nat} (inv : Inv server) (main : server.main = .create conn) :
    Isolated (server.pthreadCreate conn true) := by
  have unhandled : ∀ conn', conn = some conn' → closes server.journal conn' = 0 ∧
      ∀ index handler, server.handlers index = some handler → handler.conn ≠ some conn' := by
    rintro conn' rfl
    exact (inv.pending conn' (by rw [main]; rfl)).2
  have kept : ∀ {index handler}, server.handlers index = some handler →
      (server.pthreadCreate conn true).handlers index = some handler := by
    intro index handler found
    have different : index ≠ server.created := by
      rintro rfl
      cases (inv.fresh _ (le_refl _)).symm.trans found
    exact (Function.update_of_ne different _ _).trans found
  constructor
  case own =>
    intro op member
    obtain ⟨handler, found, target⟩ := inv.isolated.own op member
    exact ⟨handler, kept found, target⟩
  case handled =>
    intro conn' accepted
    rcases inv.isolated.handled conn' accepted with waiting | ⟨index, handler, found, same⟩
    · rw [main] at waiting
      exact .inr ⟨server.created, _, Function.update_self .., waiting⟩
    · exact .inr ⟨index, handler, kept found, same⟩
  case single =>
    intro index other handler handler' conn' lookup lookup' same same'
    rcases created_cases lookup with ⟨rfl, rfl⟩ | ⟨_, found⟩
    · rcases created_cases lookup' with ⟨rfl, rfl⟩ | ⟨_, found'⟩
      · rfl
      · exact absurd same' ((unhandled conn' same).2 other handler' found')
    · rcases created_cases lookup' with ⟨rfl, rfl⟩ | ⟨_, found'⟩
      · exact absurd same ((unhandled conn' same').2 index handler found)
      · exact inv.isolated.single _ _ _ _ conn' found found' same same'
  case closed =>
    intro index handler conn' lookup same
    rcases created_cases lookup with ⟨rfl, rfl⟩ | ⟨_, found⟩
    · exact (unhandled conn' same).1
    · exact inv.isolated.closed _ _ conn' found same

theorem Inv.created
    {conn : Option Nat} (inv : Inv server) (main : server.main = .create conn) :
    Inv (server.pthreadCreate conn true) := by
  have ready := inv.main
  rw [MainReady, main] at ready
  constructor
  case isolated => exact inv.created_isolated main
  case negative => exact inv.negative
  case fresh =>
    intro index later
    have different : index ≠ server.created := Nat.ne_of_gt later
    exact (Function.update_of_ne different _ _).trans (inv.fresh index (Nat.le_of_succ_le later))
  case counted =>
    intro index handler conn' lookup same
    rcases created_cases lookup with ⟨rfl, rfl⟩ | ⟨_, found⟩
    · exact (inv.pending conn' (by rw [main]; exact same)).1
    · exact inv.counted index handler conn' found same
  case pending => exact nofun
  case unseen => exact inv.unseen
  case cell =>
    intro index handler lookup access
    rcases created_cases lookup with ⟨rfl, rfl⟩ | ⟨_, found⟩
    · exact ready.1
    · exact inv.cell index handler found access
  case loaded =>
    intro index handler fd lookup holds
    rcases created_cases lookup with ⟨rfl, rfl⟩ | ⟨_, found⟩
    · cases holds
    · exact inv.loaded index handler fd found holds
  case main => trivial

theorem Inv.main_moves
    (place : MainPlace) (cell count : Int) (inv : Inv server)
    (pending : place.pending = server.main.pending)
    (refers : ∀ index handler, server.handlers index = some handler →
      handler.place.accesses = true → Refers server.fds cell handler.conn)
    (ready : MainReady { server with main := place, cliSock := cell }) :
    Inv { server with main := place, cliSock := cell, clientCount := count } where
  isolated := by
    refine ⟨inv.isolated.own, ?_, inv.isolated.single, inv.isolated.closed⟩
    intro conn accepted
    rw [pending]
    exact inv.isolated.handled conn accepted
  negative := inv.negative
  fresh := inv.fresh
  counted := inv.counted
  pending conn waiting := inv.pending conn (pending.symm.trans waiting)
  unseen := inv.unseen
  cell := refers
  loaded := inv.loaded
  main := ready

theorem Inv.step
    (inv : Inv server) (stepped : ServerStep server event after)
    (careful : Careful server event) : Inv after := by
  cases stepped with
  | acceptFailed main =>
      refine inv.main_moves (.store (-1) none) server.cliSock server.clientCount ?_ inv.cell ?_
      · rw [main]
        rfl
      · exact show (-1 : Int) < 0 by decide
  | accepted main nonnegative unused => exact inv.accepted main nonnegative unused
  | @store fd conn main =>
      have refers := inv.main
      rw [MainReady, main] at refers
      refine inv.main_moves (.create conn) fd server.clientCount ?_ ?_ ⟨refers, careful⟩
      · rw [main]
        rfl
      · intro index handler found access
        cases access.symm.trans (careful index handler found)
  | create succeeds main =>
      cases succeeds with
      | true => exact inv.created main
      | false =>
          rcases careful with impossible | unneeded
          · cases impossible
          · exact inv.main_moves .count server.cliSock server.clientCount unneeded.symm inv.cell
              trivial
  | count main =>
      refine inv.main_moves .accept server.cliSock (server.clientCount + 1) ?_ inv.cell trivial
      rw [main]
      rfl
  | handler found moved => exact inv.handler_step found moved

/-- In every run whose stores and creations are careful, every session stays on
its own connection. -/
theorem careful_sessions_isolated
    (run : CarefulRun history server) : Isolated server := by
  have inv : Inv server := by
    refine Trace.invariant (fun _ server => Inv server) ?_ ?_ run
    · rintro _ rfl
      exact .start
    · rintro history before event after inv ⟨stepped, careful⟩
      exact inv.step (serverStep_inversion stepped) careful
  exact inv.isolated

end Main

/-- A client says `bye` and is served from `accept` to `close`; newest event
first. -/
def oneSession : List Event :=
  let answers : Answers := { recv := some [98, 121, 101], send := true }
  [.handler 0 answers, .handler 0 answers, .handler 0 answers, .handler 0 answers, .create true,
    .store, .accept (some 4)]

theorem careful_sessions_isolated_one_client :
    ∃ server, CarefulRun oneSession server ∧ closes server.journal 0 = 1 ∧ Isolated server := by
  have stored : CarefulRun [.store, .accept (some 4)] _ :=
    .next (.next (.start rfl) ⟨rfl, trivial⟩) ⟨rfl, nofun⟩
  have created : CarefulRun [.create true, .store, .accept (some 4)] _ :=
    .next stored ⟨rfl, .inl rfl⟩
  have run : CarefulRun oneSession _ :=
    .next (.next (.next (.next created ⟨rfl, trivial⟩) ⟨rfl, trivial⟩) ⟨rfl, trivial⟩)
      ⟨rfl, trivial⟩
  exact ⟨_, run, rfl, careful_sessions_isolated run⟩

/-- A second client is accepted before the first handler has loaded the cell;
newest event first. -/
def twoClients : List Event :=
  let answers : Answers := { recv := some [104, 105], send := true }
  [.handler 0 answers, .handler 0 answers, .store, .accept (some 5), .count, .create true, .store,
    .accept (some 4)]

/-- The first handler receives from the second client. -/
theorem session_crossed :
    ∃ server, ServerRun twoClients server ∧
      (∃ op ∈ server.journal, op.handler = 0 ∧ op.target = some 1) ∧
      (∃ handler, server.handlers 0 = some handler ∧ handler.conn = some 0) ∧
      ¬ Isolated server := by
  refine ⟨_, Trace.of_replay rfl rfl, ⟨_, List.mem_cons_self, rfl, rfl⟩, ⟨_, rfl, rfl⟩, ?_⟩
  intro isolated
  obtain ⟨handler, found, target⟩ := isolated.own ⟨0, .recv, some 1⟩ List.mem_cons_self
  cases found
  cases target

end UnixSock

end Tpt
