import Marketplace.Orders.GatewaySockets

/-!
# What a socket is sent

The messages of a socket are exactly the events of its rooms, from when it entered each of them
until it was disconnected; none is lost, doubled or out of order, whatever the handshakes and joins
around it wait for.
-/

namespace Marketplace.Gateway

open Checkout (JsNumber)
open NumberedLog (Numbered)
open OrderEvents (OrderStatusEvent OrderEventsService)
open OrdersService (Database JoinAck roomName toNumber orderIdKey canView)
open RefreshToken (Token sampleToken)
open Transition

variable {Hash : Type} [DecidableEq Hash] {hash : Token → Hash} {number : Text → JsNumber}
  {readToken : Text → Option AccessToken} {state after : State Hash} {action : Action Hash}

/-! ### The inversion of a step -/

/-- What becomes of a socket that is not connected yet. -/
inductive Opens (readToken : Text → Option AccessToken) (before : State Hash)
    (action : Action Hash) :
    Socket → Socket → Prop
  | verify (id : SocketId) (sent : Handshake) (token : AccessToken)
      (haction : action = .handshake id sent)
      (htoken : (extractToken sent).bind readToken = some token)
      (hlive : before.clock < seconds token.exp) :
      Opens readToken before action .absent (.checking token.principal before.clock)
  | refuse (socket : Socket) (error : String)
      (hsocket : ∀ connection, socket ≠ .connected connection) :
      Opens readToken before action socket (.refused error)
  | accept (principal : AccessPrincipal) (verifiedAt : Nat)
      (hallowed : before.auth.denylist.isDenied principal.jti principal.familyId
        before.clock = false) :
      Opens readToken before action (.checking principal verifiedAt)
        (.admitted principal verifiedAt before.clock)
  | connect (principal : AccessPrincipal) (verifiedAt checkedAt : Nat) :
      Opens readToken before action (.admitted principal verifiedAt checkedAt)
        (.connected (.opened principal verifiedAt checkedAt before.clock))

/-- How a join goes on that leaves the sockets alone. -/
inductive Advances (number : Text → JsNumber) (before : State Hash) : Join → Join → Prop
  | begin (id : SocketId) (connection : Connection) (orderId : JsNumber)
      (hsocket : before.sockets id = .connected connection) (hopen : connection.closedAt = none)
      (hlive : before.clock < seconds connection.principal.expiresAt) :
      Advances number before .idle (.checking id connection.principal orderId)
  | view (id : SocketId) (principal : AccessPrincipal) (orderId : JsNumber)
      (hallowed : before.auth.denylist.isDenied principal.jti principal.familyId
        before.clock = false) :
      Advances number before (.checking id principal orderId) (.viewing id principal orderId)
  | grant (id : SocketId) (principal : AccessPrincipal) (orderId : JsNumber)
      (hview : canView number before.database orderId principal.userId = .ok true) :
      Advances number before (.viewing id principal orderId) (.entering id principal orderId)
  | refuse (join : Join) (reason : String) :
      Advances number before join (refusedAck reason)
  | fail (join : Join) : Advances number before join .threw

inductive Takes (hash : Token → Hash) (number : Text → JsNumber)
    (readToken : Text → Option AccessToken) (before : State Hash) (action : Action Hash) :
    State Hash → Prop
  | auth (inner : AuthService.Action Hash) (auth : AuthService.State Hash)
      (hauth : AuthService.step hash before.auth inner = some auth) :
      Takes hash number readToken before action { before with auth := auth }
  | setDatabase (database : Database) :
      Takes hash number readToken before action { before with database := database }
  | opens (id : SocketId) (socket : Socket)
      (hopens : Opens readToken before action (before.sockets id) socket) :
      Takes hash number readToken before action (before.setSocket id socket)
  | disconnect (id : SocketId) : Takes hash number readToken before action (before.disconnect id)
  | advances (call : Call) (join : Join)
      (hadvances : Advances number before (before.joins call) join) :
      Takes hash number readToken before action (before.setJoin call join)
  | throwOut (id : SocketId) (call : Call) (reason : String) :
      Takes hash number readToken before action
        ((before.disconnect id).setJoin call (refusedAck reason))
  | enter (call : Call) (id : SocketId) (principal : AccessPrincipal) (orderId : JsNumber)
      (hjoin : before.joins call = .entering id principal orderId) :
      Takes hash number readToken before action
        ((before.modify id fun connection =>
            connection.join (roomName orderId) before.emitted.length).setJoin call
          (.acked ⟨true, some (roomName orderId), none⟩))
  | emit (orderId : OrderId) (status : String) :
      Takes hash number readToken before action (emitStatusChanged before orderId status)

omit [DecidableEq Hash] in
theorem opens_beginAuth (before : State Hash) (id : SocketId) (sent : Handshake) :
    Opens readToken before (.handshake id sent) .absent
      (beginAuth readToken sent before.clock) := by
  have hrefuse : Opens readToken before (.handshake id sent) .absent (.refused "unauthorized") :=
    .refuse _ _ (by simp)
  unfold beginAuth
  split
  · exact hrefuse
  · rename_i text htext
    split
    · exact hrefuse
    · rename_i principal hverify
      obtain ⟨token, htoken, hverify⟩ := Option.bind_eq_some_iff.mp hverify
      obtain ⟨hlive, rfl⟩ := verifyAccess_eq_some hverify
      exact .verify id sent token rfl (by rw [htext, Option.bind_some, htoken]) hlive

theorem step_takes (hstep : step hash number readToken state action = some after) :
    Takes hash number readToken state action after := by
  cases action with
  | auth inner =>
      obtain ⟨auth, hauth, rfl⟩ := Option.map_eq_some_iff.mp hstep
      exact .auth inner auth hauth
  | setDatabase database =>
      cases hstep
      exact .setDatabase database
  | handshake id sent =>
      simp only [step, handshake] at hstep
      split at hstep
      · rename_i hsocket
        cases hstep
        exact .opens id _ (hsocket ▸ opens_beginAuth state id sent)
      · cases hstep
  | isDenied id =>
      simp only [step, isDenied] at hstep
      split at hstep
      · rename_i principal verifiedAt hsocket
        cases hstep
        refine .opens id _ ?_
        rw [hsocket]
        split
        · exact .refuse _ _ (by simp)
        · rename_i hallowed
          exact .accept principal verifiedAt (Bool.eq_false_of_not_eq_true hallowed)
      · cases hstep
  | denylistFails id =>
      simp only [step, denylistFails] at hstep
      split at hstep
      · rename_i principal verifiedAt hsocket
        cases hstep
        exact .opens id _ (hsocket ▸ .refuse _ _ (by simp))
      · cases hstep
  | handleConnection id =>
      simp only [step, handleConnection] at hstep
      split at hstep
      · rename_i principal verifiedAt checkedAt hsocket
        cases hstep
        exact .opens id _ (hsocket ▸ .connect principal verifiedAt checkedAt)
      · cases hstep
  | leave id =>
      simp only [step, leave] at hstep
      split at hstep
      · cases hstep
        exact .disconnect id
      · cases hstep
  | expire id =>
      simp only [step, expire] at hstep
      split at hstep
      · split at hstep
        · cases hstep
          exact .disconnect id
        · cases hstep
      · cases hstep
  | join call id payload =>
      simp only [step, join] at hstep
      split at hstep
      case h_2 => cases hstep
      rename_i connection hjoin hsocket
      split at hstep
      · cases hstep
      rename_i hopen
      split at hstep
      · cases hstep
        exact .throwOut id call _
      rename_i hlive
      split at hstep
      · cases hstep
        exact .advances call _ (.fail _)
      · rename_i orderId horderId
        split at hstep
        · cases hstep
          exact .advances call _
            (hjoin ▸ .begin id connection orderId hsocket (not_not.mp hopen) (Nat.not_le.mp hlive))
        · cases hstep
          exact .advances call _ (.refuse _ _)
  | joinIsDenied call =>
      simp only [step, joinIsDenied] at hstep
      split at hstep
      · rename_i id principal orderId hjoin
        split at hstep
        · cases hstep
          exact .throwOut id call _
        · rename_i hallowed
          cases hstep
          exact .advances call _
            (hjoin ▸ .view id principal orderId (Bool.eq_false_of_not_eq_true hallowed))
      · cases hstep
  | joinDenylistFails call =>
      simp only [step, joinDenylistFails] at hstep
      split at hstep
      · cases hstep
        exact .advances call _ (.refuse _ _)
      · cases hstep
  | canView call =>
      simp only [step, viewOrder] at hstep
      split at hstep
      · rename_i id principal orderId hjoin
        split at hstep
        · rename_i hview
          cases hstep
          exact .advances call _ (hjoin ▸ .grant id principal orderId hview)
        · cases hstep
          exact .advances call _ (.refuse _ _)
        · cases hstep
          exact .advances call _ (.fail _)
      · cases hstep
  | canViewFails call =>
      simp only [step, canViewFails] at hstep
      split at hstep
      · cases hstep
        exact .advances call _ (.fail _)
      · cases hstep
  | enter call =>
      simp only [step, enter] at hstep
      split at hstep
      · rename_i id principal orderId hjoin
        cases hstep
        exact .enter call id principal orderId hjoin
      · cases hstep
  | emitStatusChanged orderId status =>
      cases hstep
      exact .emit orderId status

omit [DecidableEq Hash] in
theorem Opens.of_connected {before : State Hash} {socket : Socket} {connection : Connection}
    (hopens : Opens readToken before action socket (.connected connection)) :
    ∃ principal verifiedAt checkedAt, socket = .admitted principal verifiedAt checkedAt ∧
      connection = .opened principal verifiedAt checkedAt before.clock := by
  cases hopens with
  | connect principal verifiedAt checkedAt => exact ⟨principal, verifiedAt, checkedAt, rfl, rfl⟩

/-- What becomes of one socket, and of the log. -/
inductive Changes (readToken : Text → Option AccessToken) (before : State Hash)
    (action : Action Hash) (id : SocketId) : Socket → List OrderStatusEvent → Prop
  | keep : Changes readToken before action id (before.sockets id) before.emitted
  | opens (socket : Socket) (hopens : Opens readToken before action (before.sockets id) socket) :
      Changes readToken before action id socket before.emitted
  | close (connection : Connection) (hsocket : before.sockets id = .connected connection) :
      Changes readToken before action id (.connected (connection.close before.emitted.length))
        before.emitted
  | join (connection : Connection) (call : Call) (principal : AccessPrincipal) (orderId : JsNumber)
      (hsocket : before.sockets id = .connected connection)
      (hjoin : before.joins call = .entering id principal orderId) :
      Changes readToken before action id
        (.connected (connection.join (roomName orderId) before.emitted.length)) before.emitted
  | push (orderId : OrderId) (status : String) (event : OrderStatusEvent)
      (hevent : event = ⟨before.service.nextEventId, orderId, status⟩) :
      Changes readToken before action id ((before.sockets id).push event before.clock)
        (before.emitted ++ [event])

section States

variable (before : State Hash)

omit [DecidableEq Hash] in
@[simp]
theorem State.sockets_setSocket (id : SocketId) (socket : Socket) :
    (before.setSocket id socket).sockets = Function.update before.sockets id socket := rfl

omit [DecidableEq Hash] in
@[simp]
theorem State.sockets_setJoin (call : Call) (join : Join) :
    (before.setJoin call join).sockets = before.sockets := rfl

omit [DecidableEq Hash] in
@[simp]
theorem State.emitted_setJoin (call : Call) (join : Join) :
    (before.setJoin call join).emitted = before.emitted := rfl

omit [DecidableEq Hash] in
@[simp]
theorem State.joins_setJoin (call : Call) (join : Join) :
    (before.setJoin call join).joins = Function.update before.joins call join := rfl

omit [DecidableEq Hash] in
theorem State.modify_eq (id : SocketId) (change : Connection → Connection) :
    before.modify id change = before ∨
      ∃ connection, before.sockets id = .connected connection ∧
        before.modify id change = before.setSocket id (.connected (change connection)) := by
  unfold State.modify
  split
  · rename_i connection hsocket
    exact .inr ⟨connection, hsocket, rfl⟩
  · exact .inl rfl

omit [DecidableEq Hash] in
theorem State.exists_modify_eq (id : SocketId) (change : Connection → Connection) :
    ∃ sockets, before.modify id change = { before with sockets := sockets } := by
  rcases before.modify_eq id change with heq | ⟨connection, -, heq⟩
  · exact ⟨before.sockets, heq⟩
  · exact ⟨_, heq⟩

omit [DecidableEq Hash] in
/-- A modified socket is the connection that it was; the others are left alone. -/
theorem State.sockets_modify (id other : SocketId) (change : Connection → Connection) :
    (before.modify id change).sockets other = before.sockets other ∨
      ∃ connection, other = id ∧ before.sockets id = .connected connection ∧
        (before.modify id change).sockets other = .connected (change connection) := by
  rcases before.modify_eq id change with heq | ⟨connection, hsocket, heq⟩
  · exact .inl (congrFun (congrArg State.sockets heq) other)
  · rw [heq, State.sockets_setSocket]
    by_cases hid : other = id
    · subst hid
      exact .inr ⟨connection, rfl, hsocket, Function.update_self _ _ _⟩
    · exact .inl (Function.update_of_ne hid _ _)

omit [DecidableEq Hash] in
@[simp]
theorem State.joins_modify (id : SocketId) (change : Connection → Connection) :
    (before.modify id change).joins = before.joins := by
  obtain ⟨sockets, heq⟩ := before.exists_modify_eq id change
  rw [heq]

omit [DecidableEq Hash] in
@[simp]
theorem State.emitted_modify (id : SocketId) (change : Connection → Connection) :
    (before.modify id change).emitted = before.emitted := by
  obtain ⟨sockets, heq⟩ := before.exists_modify_eq id change
  rw [heq]

omit [DecidableEq Hash] in
@[simp]
theorem State.service_modify (id : SocketId) (change : Connection → Connection) :
    (before.modify id change).service = before.service := by
  obtain ⟨sockets, heq⟩ := before.exists_modify_eq id change
  rw [heq]

omit [DecidableEq Hash] in
@[simp]
theorem State.auth_modify (id : SocketId) (change : Connection → Connection) :
    (before.modify id change).auth = before.auth := by
  obtain ⟨sockets, heq⟩ := before.exists_modify_eq id change
  rw [heq]

omit [DecidableEq Hash] in
theorem changes_disconnect (id other : SocketId) :
    Changes readToken before action other ((before.disconnect id).sockets other)
      before.emitted := by
  rcases before.sockets_modify id other fun connection =>
    connection.close before.emitted.length with
    hkept | ⟨connection, rfl, hsocket, hclosed⟩
  · rw [State.disconnect, hkept]
    exact .keep
  · rw [State.disconnect, hclosed]
    exact .close connection hsocket

end States

theorem socket_changes (hstep : step hash number readToken state action = some after)
    (id : SocketId) :
    Changes readToken state action id (after.sockets id) after.emitted := by
  cases step_takes hstep with
  | auth inner auth hauth => exact .keep
  | setDatabase database => exact .keep
  | opens mover socket hopens =>
      rw [State.sockets_setSocket]
      by_cases heq : id = mover
      · subst heq
        rw [Function.update_self]
        exact .opens socket hopens
      · rw [Function.update_of_ne heq]
        exact .keep
  | disconnect mover =>
      have hchanges : Changes readToken state action id _ _ := changes_disconnect state mover id
      rwa [State.disconnect, State.emitted_modify, ← State.disconnect]
  | advances call join hadvances => exact .keep
  | throwOut mover call reason =>
      have hchanges : Changes readToken state action id _ _ := changes_disconnect state mover id
      rwa [State.sockets_setJoin, State.emitted_setJoin, State.disconnect, State.emitted_modify,
        ← State.disconnect]
  | enter call mover principal orderId hjoin =>
      rw [State.sockets_setJoin, State.emitted_setJoin, State.emitted_modify]
      rcases state.sockets_modify mover id fun connection =>
          connection.join (roomName orderId) state.emitted.length with
        hkept | ⟨connection, rfl, hsocket, hjoined⟩
      · rw [hkept]
        exact .keep
      · rw [hjoined]
        exact .join connection call principal orderId hsocket hjoin
  | emit orderId status => exact .push orderId status _ rfl

/-- What becomes of one call of `handleJoin`: it is acked as joined only when it was let in. -/
theorem join_changes (hstep : step hash number readToken state action = some after) (call : Call) :
    after.joins call = state.joins call ∨
      Advances number state (state.joins call) (after.joins call) ∨
      ∃ id principal orderId, state.joins call = .entering id principal orderId ∧
        after.joins call = .acked ⟨true, some (roomName orderId), none⟩ := by
  have hset : ∀ (mover : Call) (join : Join),
      after.joins = Function.update state.joins mover join →
      (Advances number state (state.joins mover) join ∨
        ∃ id principal orderId, state.joins mover = .entering id principal orderId ∧
          join = .acked ⟨true, some (roomName orderId), none⟩) →
      after.joins call = state.joins call ∨
        Advances number state (state.joins call) (after.joins call) ∨
        ∃ id principal orderId, state.joins call = .entering id principal orderId ∧
          after.joins call = .acked ⟨true, some (roomName orderId), none⟩ := by
    intro mover join hjoins hnext
    rw [hjoins]
    by_cases heq : call = mover
    · subst heq
      rw [Function.update_self]
      exact .inr hnext
    · exact .inl (Function.update_of_ne heq _ _)
  cases step_takes hstep with
  | auth inner auth hauth => exact .inl rfl
  | setDatabase database => exact .inl rfl
  | opens mover socket hopens => exact .inl rfl
  | disconnect mover => exact .inl (congrFun (state.joins_modify mover _) call)
  | advances mover join hadvances => exact hset mover join rfl (.inl hadvances)
  | throwOut id mover reason =>
      refine hset mover (refusedAck reason) ?_ (.inl (.refuse _ _))
      rw [State.joins_setJoin, State.disconnect, State.joins_modify]
  | enter mover id principal orderId hjoin =>
      exact hset mover _ (by rw [State.joins_setJoin, State.joins_modify])
        (.inr ⟨id, principal, orderId, hjoin, rfl⟩)
  | emit orderId status => exact .inl rfl

/-! ### One connection -/

/-- The event is one of a room that the socket was in when it was emitted. -/
def Connection.follows (connection : Connection) (event : OrderStatusEvent) : Bool :=
  (connection.rooms.any fun membership =>
    membership.room = roomName (.integer event.orderId) && membership.since < event.id) &&
  connection.closedAt.all fun closedAt => event.id ≤ closedAt

/-- The socket has been sent what it follows. -/
structure Connection.UpToDate (connection : Connection) (emitted : List OrderStatusEvent) :
    Prop where
  since : ∀ membership ∈ connection.rooms, membership.since ≤ emitted.length
  closed : ∀ closedAt, connection.closedAt = some closedAt → closedAt ≤ emitted.length
  once : (connection.rooms.map Membership.room).Nodup
  received : connection.received.map Push.event = emitted.filter connection.follows

section Connections

variable {connection : Connection} {emitted : List OrderStatusEvent} {event : OrderStatusEvent}

theorem id_le_length (hnumbered : Numbered OrderStatusEvent.id emitted) (hevent : event ∈ emitted) :
    event.id ≤ emitted.length := by
  have hid : event.id ∈ emitted.map OrderStatusEvent.id := List.mem_map_of_mem hevent
  rw [hnumbered, List.mem_range'_1] at hid
  omega

theorem upToDate_opened (principal : AccessPrincipal) (verifiedAt checkedAt now : Nat)
    (emitted : List OrderStatusEvent) :
    (Connection.opened principal verifiedAt checkedAt now).UpToDate emitted where
  since _ hmembership := absurd hmembership List.not_mem_nil
  closed _ hclosed := by cases hclosed
  once := List.nodup_nil
  received := by simp [Connection.opened, Connection.follows]

theorem Connection.UpToDate.close (hupToDate : connection.UpToDate emitted)
    (hnumbered : Numbered OrderStatusEvent.id emitted) :
    (connection.close emitted.length).UpToDate emitted := by
  refine ⟨hupToDate.since, ?_, hupToDate.once, ?_⟩
  · intro closedAt hclosed
    cases hold : connection.closedAt with
    | none =>
        rw [Connection.close, hold] at hclosed
        cases hclosed
        exact Nat.le_refl _
    | some old =>
        rw [Connection.close, hold] at hclosed
        cases hclosed
        exact hupToDate.closed _ hold
  · refine hupToDate.received.trans (List.filter_congr fun event hevent => ?_)
    have hle := id_le_length hnumbered hevent
    cases hold : connection.closedAt <;> simp [Connection.follows, Connection.close, hold, hle]

theorem Connection.UpToDate.join (hupToDate : connection.UpToDate emitted)
    (hnumbered : Numbered OrderStatusEvent.id emitted) (room : Text) :
    (connection.join room emitted.length).UpToDate emitted := by
  unfold Connection.join
  split
  case isFalse => exact hupToDate
  rename_i hnew
  refine ⟨?_, hupToDate.closed, ?_, ?_⟩
  · intro membership hmembership
    rcases List.mem_append.mp hmembership with hold | hnew
    · exact hupToDate.since membership hold
    · rw [List.mem_singleton.mp hnew]
  · rw [List.map_append]
    refine hupToDate.once.append (List.nodup_singleton _) ?_
    have habsent := hnew.2
    simp only [Connection.inRoom, List.any_eq_false, decide_eq_true_eq] at habsent
    simpa using habsent
  · refine hupToDate.received.trans (List.filter_congr fun event hevent => ?_)
    have hle := id_le_length hnumbered hevent
    simp [Connection.follows, Nat.not_lt.mpr hle]

/-- One more event: an open socket in its room gets it. -/
theorem Connection.UpToDate.push (hupToDate : connection.UpToDate emitted)
    (hid : event.id = emitted.length + 1) (time : Nat) :
    (connection.push event time).UpToDate (emitted ++ [event]) := by
  have hfollows : connection.follows event = true ↔
      connection.closedAt = none ∧
        connection.inRoom (roomName (.integer event.orderId)) = true := by
    cases hclosed : connection.closedAt with
    | none =>
        simp only [Connection.follows, Connection.inRoom, hclosed, Option.all_none, Bool.and_true,
          List.any_eq_true, Bool.and_eq_true, decide_eq_true_eq, true_and]
        constructor
        · rintro ⟨membership, hmem, hroom, -⟩
          exact ⟨membership, hmem, hroom⟩
        · rintro ⟨membership, hmem, hroom⟩
          have hsince := hupToDate.since membership hmem
          exact ⟨membership, hmem, hroom, by omega⟩
    | some closedAt =>
        have hlate : ¬ event.id ≤ closedAt := by
          have hle := hupToDate.closed closedAt hclosed
          omega
        simp [Connection.follows, hclosed, hlate]
  have hkept : ∀ received, { connection with received := received }.follows = connection.follows :=
    fun _ => rfl
  refine ⟨?_, ?_, ?_, ?_⟩
  · intro membership hmembership
    have hold : membership ∈ connection.rooms := by
      unfold Connection.push at hmembership
      split at hmembership <;> exact hmembership
    have hsince := hupToDate.since membership hold
    rw [List.length_append]
    omega
  · intro closedAt hclosed
    have hold : connection.closedAt = some closedAt := by
      unfold Connection.push at hclosed
      split at hclosed <;> exact hclosed
    have hle := hupToDate.closed closedAt hold
    rw [List.length_append]
    omega
  · unfold Connection.push
    split <;> exact hupToDate.once
  · unfold Connection.push
    rw [List.filter_append]
    split
    · rename_i hgets
      rw [hkept, List.map_append, hupToDate.received, List.filter_cons_of_pos (hfollows.mpr hgets)]
      rfl
    · rename_i hmisses
      rw [hupToDate.received, List.filter_cons_of_neg fun hgets => hmisses (hfollows.mp hgets),
        List.filter_nil, List.append_nil]

end Connections

/-! ### All of them -/

structure Inv (state : State Hash) : Prop where
  numbered : Numbered OrderStatusEvent.id state.emitted
  next : state.service.nextEventId = state.emitted.length + 1
  connected : ∀ id connection, state.sockets id = .connected connection →
    connection.UpToDate state.emitted

omit [DecidableEq Hash] in
theorem inv_init (database : Database) : Inv (State.init database : State Hash) where
  numbered := NumberedLog.numbered_nil
  next := rfl
  connected _ _ hsocket := by cases hsocket

/-- The log grows by the event that the service numbers next, or not at all. -/
theorem log_step (hstep : step hash number readToken state action = some after) :
    (after.emitted = state.emitted ∧ after.service = state.service) ∨
      ∃ orderId status,
        after.emitted = state.emitted ++ [⟨state.service.nextEventId, orderId, status⟩] ∧
        after.service.nextEventId = state.service.nextEventId + 1 := by
  cases step_takes hstep with
  | auth inner auth hauth => exact .inl ⟨rfl, rfl⟩
  | setDatabase database => exact .inl ⟨rfl, rfl⟩
  | opens mover socket hopens => exact .inl ⟨rfl, rfl⟩
  | disconnect mover => exact .inl ⟨state.emitted_modify _ _, state.service_modify _ _⟩
  | advances mover join hadvances => exact .inl ⟨rfl, rfl⟩
  | throwOut id mover reason => exact .inl ⟨state.emitted_modify _ _, state.service_modify _ _⟩
  | enter mover id principal orderId hjoin =>
      exact .inl ⟨state.emitted_modify _ _, state.service_modify _ _⟩
  | emit orderId status => exact .inr ⟨orderId, status, rfl, rfl⟩

theorem Inv.step (hinv : Inv state) (hstep : step hash number readToken state action = some after) :
    Inv after := by
  have hnumbered : Numbered OrderStatusEvent.id after.emitted ∧
      after.service.nextEventId = after.emitted.length + 1 := by
    rcases log_step hstep with ⟨hlog, hservice⟩ | ⟨orderId, status, hlog, hnext⟩
    · rw [hlog, hservice]
      exact ⟨hinv.numbered, hinv.next⟩
    · rw [hlog, hnext, hinv.next, List.length_append, List.length_singleton]
      exact ⟨hinv.numbered.push rfl, rfl⟩
  refine ⟨hnumbered.1, hnumbered.2, fun id connection hsocket => ?_⟩
  have hchanges := socket_changes hstep id
  rw [hsocket] at hchanges
  generalize hemitted : after.emitted = emitted at hchanges ⊢
  generalize htarget : Socket.connected connection = socket at hchanges
  cases hchanges with
  | keep => exact hinv.connected id connection htarget.symm
  | opens socket hopens =>
      subst htarget
      obtain ⟨principal, verifiedAt, checkedAt, -, rfl⟩ := hopens.of_connected
      exact upToDate_opened _ _ _ _ _
  | close old hold =>
      cases htarget
      exact (hinv.connected id old hold).close hinv.numbered
  | join old call principal orderId hold hjoin =>
      cases htarget
      exact (hinv.connected id old hold).join hinv.numbered _
  | push orderId status event hevent =>
      cases hold : state.sockets id with
      | connected old =>
          rw [hold] at htarget
          cases htarget
          exact (hinv.connected id old hold).push (by rw [hevent, hinv.next]) _
      | _ => rw [hold] at htarget; cases htarget

theorem inv_reach {ok : State Hash → Action Hash → Prop} {start : State Hash} (hstart : Inv start)
    (hreach : Reach (step hash number readToken) ok start state) : Inv state :=
  hreach.invariant Inv hstart fun _ _ _ _ hinv _ hstep => hinv.step hstep

/-- In every run a socket has been sent exactly the events that it follows, each once and in the
order in which they were emitted. -/
theorem received_exact {database : Database}
    (hreach : Reachable (step hash number readToken) (State.init database) state) {id : SocketId}
    {connection : Connection} (hsocket : state.sockets id = .connected connection) :
    connection.received.map Push.event = state.emitted.filter connection.follows :=
  ((inv_reach (inv_init database) hreach).connected id connection hsocket).received

/-- The text of the token of user 1. -/
def readToken1 (text : Text) : Option AccessToken :=
  if text = ['1'] then some (signAccess 1 .customer 0 100 0) else none

/-- Order 8 is of user 1, order 9 of nobody. -/
def Database.shared : Database :=
  .ofOrders [⟨8, some 1, "ada@example.com", "created", 500, "UAH", []⟩,
    ⟨9, none, "bob@example.com", "created", 500, "UAH", []⟩] (by decide) (by decide) (by decide)

def loginUser1 : List (Action Token) :=
  [.auth (.login 1 (some (1, .customer))), .auth (.issue 1 0 (sampleToken 'A')),
    .auth (.sign 1 100)]

def connectSocket (id : SocketId) : List (Action Token) :=
  [.handshake id ⟨some (.string ['1']), none⟩, .isDenied id, .handleConnection id]

def joinOrder (call : Call) (id : SocketId) (orderId : Text) : List (Action Token) :=
  [.join call id (some (.object [(orderIdKey, .string orderId)])), .joinIsDenied call,
    .canView call]

/-- The socket comes into the room between two events. -/
def twoEvents : List (Action Token) :=
  loginUser1 ++ connectSocket 5 ++ joinOrder 11 5 ['8'] ++
    [.emitStatusChanged 8 "paid", .enter 11, .emitStatusChanged 8 "shipped"]

theorem received_exact_second :
    ∃ (state : State Token) (connection : Connection),
      Reachable (step id readDecimal readToken1) (State.init Database.shared) state ∧
      state.sockets 5 = .connected connection ∧
      state.emitted = [⟨1, 8, "paid"⟩, ⟨2, 8, "shipped"⟩] ∧
      connection.received.map Push.event = state.emitted.filter connection.follows ∧
      connection.received.map Push.event = [⟨2, 8, "shipped"⟩] := by
  obtain ⟨state, hreach, hcheck⟩ : ∃ state : State Token, Reachable (step id readDecimal readToken1)
      (State.init Database.shared) state ∧
      decide (state.sockets 5 = .connected ⟨(signAccess 1 .customer 0 100 0).principal, 0,
        0, 600000,
          [⟨roomName (.integer 8), 1⟩], none, [⟨⟨2, 8, "shipped"⟩, 0⟩]⟩ ∧
        state.emitted = [⟨1, 8, "paid"⟩, ⟨2, 8, "shipped"⟩]) = true :=
    exists_reach_of_runWithin twoEvents (by decide +kernel)
  obtain ⟨hsocket, hemitted⟩ := of_decide_eq_true hcheck
  exact ⟨state, _, hreach, hsocket, hemitted, received_exact hreach hsocket, rfl⟩

end Marketplace.Gateway
