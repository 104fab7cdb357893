import Marketplace.Orders.GatewayJoins

/-!
# Who is sent what

The checks of a join are made at three different times, with waits in between, and a socket outlives
them all: an order that a user may not see is sent to no socket of his, a token that was revoked
opens no more rooms, and nothing is sent for long after a token has expired.
-/

namespace Marketplace.Gateway

open Checkout (JsNumber)
open OrderEvents (OrderStatusEvent)
open OrdersService (Database JoinAck roomName orderIdKey canView)
open RefreshToken (Token sampleToken)
open Transition

variable {Hash : Type} [DecidableEq Hash] {hash : Token → Hash} {number : Text → JsNumber}
  {readToken : Text → Option AccessToken} {state after : State Hash} {action : Action Hash}

/-- An event was received in its room, which the socket was in. -/
theorem inRoom_of_received {emitted : List OrderStatusEvent} {connection : Connection}
    (hupToDate : connection.UpToDate emitted) {push : Push} (hpush : push ∈ connection.received) :
    connection.inRoom (roomName (.integer push.event.orderId)) = true := by
  have hevent : push.event ∈ connection.received.map Push.event := List.mem_map_of_mem hpush
  rw [hupToDate.received] at hevent
  have hfollows := (List.mem_filter.mp hevent).2
  rw [Connection.follows, Bool.and_eq_true, List.any_eq_true] at hfollows
  obtain ⟨⟨membership, hmembership, hroom⟩, -⟩ := hfollows
  rw [Bool.and_eq_true] at hroom
  exact List.any_eq_true.mpr ⟨membership, hmembership, hroom.1⟩

/-! ### Orders that a user may not see -/

/-- The user's socket is in the room, or was just let in. -/
def Admitted (id : SocketId) (room : Text) (userId : UserId) (state : State Hash) : Prop :=
  (∃ connection, state.sockets id = .connected connection ∧ connection.principal.userId = userId ∧
    connection.inRoom room = true) ∨
  ∃ call principal orderId, state.joins call = .entering id principal orderId ∧
    principal.userId = userId ∧ roomName orderId = room

omit [DecidableEq Hash] in
/-- Whether an order may be seen depends on the text of its number, as the name of its room does. -/
theorem canView_of_roomName {database : Database} {left right : JsNumber} {userId : UserId}
    (hroom : roomName left = roomName right) :
    canView number database left userId = canView number database right userId := by
  have htext : left.text = right.text := List.append_cancel_left hroom
  rw [canView, canView, htext]

theorem not_admitted_step (haccess : AccessInv hash state)
    (hstep : step hash number readToken state action = some after) {id : SocketId} {order : OrderId}
    {userId : UserId} (hhidden : canView number state.database (.integer order) userId ≠ .ok true)
    (hout : ¬ Admitted id (roomName (.integer order)) userId state) :
    ¬ Admitted id (roomName (.integer order)) userId after := by
  rintro (⟨next, hnext, huser, hroom⟩ | ⟨call, principal, orderId, hjoin, huser, hroom⟩)
  · by_cases hold : ∃ connection, state.sockets id = .connected connection
    · obtain ⟨connection, hsocket⟩ := hold
      obtain ⟨found, hfound, hsame, hrooms⟩ := connected_step hstep hsocket
      rw [hnext] at hfound
      cases hfound
      rw [hsame.principal] at huser
      rcases hrooms with hrooms | ⟨call, principal, orderId, count, hjoin, hrooms⟩
      · rw [Connection.inRoom, hrooms] at hroom
        exact hout (.inl ⟨connection, hsocket, huser, hroom⟩)
      · rw [Connection.inRoom, hrooms, List.any_append, Bool.or_eq_true] at hroom
        rcases hroom with hroom | hroom
        · exact hout (.inl ⟨connection, hsocket, huser, hroom⟩)
        · obtain ⟨connection', hsocket', hprincipal, -⟩ :=
            haccess.joins call id principal (congrArg Join.waiting hjoin)
          rw [hsocket] at hsocket'
          cases hsocket'
          refine hout (.inr ⟨call, principal, orderId, hjoin, by rw [← hprincipal, huser], ?_⟩)
          simpa using hroom
    · obtain ⟨_, _, _, -, rfl⟩ :=
        new_connected hstep hnext fun connection hsocket => hold ⟨connection, hsocket⟩
      cases hroom
  · rcases join_changes hstep call with hkept | hadvances | ⟨_, _, _, -, hacked⟩
    · exact hout (.inr ⟨call, principal, orderId, hkept ▸ hjoin, huser, hroom⟩)
    · rw [hjoin] at hadvances
      generalize state.joins call = before at hadvances
      cases hadvances with
      | grant id principal orderId hview =>
          rw [huser, canView_of_roomName hroom] at hview
          exact hhidden hview
    · rw [hjoin] at hacked
      cases hacked

/-- The join is not in: it waits for one of its lookups, or it was refused, or it threw. -/
def Join.Outside : Join → Prop
  | .idle | .checking .. | .viewing .. | .threw => True
  | .entering .. => False
  | .acked ack => ack.joined = false

/-- What a join asks for that waits for one of its lookups. -/
def Join.asks : Join → Option (AccessPrincipal × JsNumber)
  | .checking _ principal orderId | .viewing _ principal orderId => some (principal, orderId)
  | .idle | .entering .. | .acked _ | .threw => none

/-- The join has begun, it is not in, and what it still asks for is the user's and of the room. -/
structure Join.ShutOut (userId : UserId) (room : Text) (join : Join) : Prop where
  outside : join.Outside
  begun : join ≠ .idle
  asks : ∀ principal orderId, join.asks = some (principal, orderId) →
    principal.userId = userId ∧ roomName orderId = room

theorem Join.shutOut_of_asks {join : Join} {principal : AccessPrincipal} {orderId : JsNumber}
    (hasks : join.asks = some (principal, orderId)) :
    join.ShutOut principal.userId (roomName orderId) := by
  cases join with
  | checking id asking wanted =>
      cases hasks
      exact ⟨trivial, nofun, fun _ _ hsame => by cases hsame; exact ⟨rfl, rfl⟩⟩
  | viewing id asking wanted =>
      cases hasks
      exact ⟨trivial, nofun, fun _ _ hsame => by cases hsame; exact ⟨rfl, rfl⟩⟩
  | _ => cases hasks

theorem shutOut_step (hstep : step hash number readToken state action = some after) {call : Call}
    {order : OrderId} {userId : UserId}
    (hhidden : canView number state.database (.integer order) userId ≠ .ok true)
    (hshut : (state.joins call).ShutOut userId (roomName (.integer order))) :
    (after.joins call).ShutOut userId (roomName (.integer order)) := by
  rcases join_changes hstep call with hkept | hadvances | ⟨id, principal, orderId, hentering, -⟩
  · rwa [hkept]
  · generalize state.joins call = before at hadvances hshut
    generalize after.joins call = join at hadvances ⊢
    cases hadvances with
    | begin id connection orderId hsocket hopen hlive => exact absurd rfl hshut.begun
    | view id principal orderId hallowed => exact ⟨trivial, nofun, hshut.asks⟩
    | grant id principal orderId hview =>
        obtain ⟨huser, hroom⟩ := hshut.asks principal orderId rfl
        rw [huser, canView_of_roomName hroom] at hview
        exact absurd hview hhidden
    | refuse join reason => exact ⟨rfl, nofun, nofun⟩
    | fail join => exact ⟨trivial, nofun, nofun⟩
  · have houtside := hshut.outside
    rw [hentering] at houtside
    exact houtside.elim

theorem not_admitted_reach {database : Database} {start : State Hash} {id : SocketId}
    {order : OrderId} {userId : UserId}
    (hbefore : Reachable (step hash number readToken) (State.init database) start)
    (hout : ¬ Admitted id (roomName (.integer order)) userId start)
    (hreach : Reach (step hash number readToken)
      (fun state _ => canView number state.database (.integer order) userId ≠ .ok true)
      start state) :
    ¬ Admitted id (roomName (.integer order)) userId state := by
  have haccess := accessInv_reach (accessInv_init database) hbefore
  exact hreach.invariant (fun state => ¬ Admitted id (roomName (.integer order)) userId state) hout
    fun middle _ _ hmiddle hout hhidden hstep =>
      not_admitted_step (accessInv_reach haccess hmiddle) hstep hhidden hout

/-- While the database does not let a user see an order, no socket of his is sent an event of it,
unless it was let into the room before; and the joins for it that were waiting for a lookup when he
lost sight of the order come too late, whichever socket they are for. -/
theorem hidden_unseen {database : Database} {start : State Hash} {id : SocketId} {order : OrderId}
    {userId : UserId}
    (hbefore : Reachable (step hash number readToken) (State.init database) start)
    (hout : ¬ Admitted id (roomName (.integer order)) userId start)
    (hreach : Reach (step hash number readToken)
      (fun state _ => canView number state.database (.integer order) userId ≠ .ok true)
      start state) :
    (∀ connection, state.sockets id = .connected connection → connection.principal.userId = userId →
      ∀ push ∈ connection.received, push.event.orderId ≠ order) ∧
    ∀ call principal orderId, (start.joins call).asks = some (principal, orderId) →
      principal.userId = userId → roomName orderId = roomName (.integer order) →
      (state.joins call).Outside := by
  constructor
  · have hinv := inv_reach (inv_reach (inv_init database) hbefore) hreach
    intro connection hsocket huser push hpush heq
    have hroom := inRoom_of_received (hinv.connected id connection hsocket) hpush
    rw [heq] at hroom
    exact not_admitted_reach hbefore hout hreach (.inl ⟨connection, hsocket, huser, hroom⟩)
  · rintro call principal orderId hasks rfl hroom
    have hshut := Join.shutOut_of_asks hasks
    rw [hroom] at hshut
    exact (hreach.invariant (fun state : State Hash =>
      (state.joins call).ShutOut principal.userId (roomName (.integer order))) hshut
      fun _ _ _ _ hshut hhidden hstep => shutOut_step hstep hhidden hshut).outside

/-- User 1 asks for order 9, which is not his. -/
def asksForForeign : List (Action Token) :=
  loginUser1 ++ connectSocket 5 ++ (joinOrder 11 5 ['9']).take 1

/-- Then he asks for order 8, and there is an event of each. -/
def asksForOwn : List (Action Token) :=
  (joinOrder 11 5 ['9']).drop 1 ++ joinOrder 12 5 ['8'] ++
    [.enter 12, .emitStatusChanged 9 "paid", .emitStatusChanged 8 "paid"]

theorem hidden_unseen_stranger :
    ∃ (start state : State Token) (connection : Connection),
      (start.joins 11).asks = some ((signAccess 1 .customer 0 100 0).principal, .integer 9) ∧
      Reach (step id readDecimal readToken1)
        (fun state _ => canView readDecimal state.database (.integer 9) 1 ≠ .ok true) start state ∧
      state.sockets 5 = .connected connection ∧
      state.emitted = [⟨1, 9, "paid"⟩, ⟨2, 8, "paid"⟩] ∧
      connection.received = [⟨⟨2, 8, "paid"⟩, 0⟩] ∧
      (∀ push ∈ connection.received, push.event.orderId ≠ 9) ∧ (state.joins 11).Outside := by
  obtain ⟨start, hstart⟩ : ∃ start : State Token, runWithin (step id readDecimal readToken1)
      (fun state _ => canView readDecimal state.database (.integer 9) 1 ≠ .ok true)
      (State.init Database.shared) asksForForeign = some start :=
    Option.isSome_iff_exists.mp (by decide +kernel)
  have hchecks : ((runWithin (step id readDecimal readToken1)
      (fun state _ => canView readDecimal state.database (.integer 9) 1 ≠ .ok true)
      (State.init Database.shared) asksForForeign).bind fun start : State Token => some (decide (
        (start.joins 11).asks = some ((signAccess 1 .customer 0 100 0).principal, .integer 9)) &&
      (runWithin (step id readDecimal readToken1)
        (fun state _ => canView readDecimal state.database (.integer 9) 1 ≠ .ok true) start
        asksForOwn).any fun state =>
          decide (state.sockets 5 = .connected ⟨(signAccess 1 .customer 0 100 0).principal, 0, 0,
              600000, [⟨roomName (.integer 8), 0⟩], none, [⟨⟨2, 8, "paid"⟩, 0⟩]⟩ ∧
            state.emitted = [⟨1, 9, "paid"⟩, ⟨2, 8, "paid"⟩]))) = some true := by
    decide +kernel
  rw [hstart, Option.bind_some, Option.some.injEq, Bool.and_eq_true, decide_eq_true_eq] at hchecks
  obtain ⟨hasks, hrun⟩ := hchecks
  obtain ⟨state, hreach, hcheck⟩ := exists_reach_of_runWithin _ hrun
  obtain ⟨hsocket, hemitted⟩ := of_decide_eq_true hcheck
  have hbefore := reach_of_runWithin hstart
  have hout : ¬ Admitted 5 (roomName (.integer 9)) 1 (State.init Database.shared :
      State Token) := by
    rintro (⟨connection, hsocket, -⟩ | ⟨call, principal, orderId, hjoin, -⟩)
    · cases hsocket
    · cases hjoin
  have hunseen := hidden_unseen (hbefore.mono fun _ _ _ => trivial)
    (not_admitted_reach .refl hout hbefore) hreach
  exact ⟨start, state, _, hasks, hreach, hsocket, hemitted, rfl, hunseen.1 _ hsocket rfl,
    hunseen.2 11 _ _ hasks rfl rfl⟩

/-! ### Tokens that expire -/

/-- The timer of the socket has not been due for longer than this. -/
def Punctual (id : SocketId) (lateness : Nat) (state : State Hash) : Prop :=
  ∀ connection, state.sockets id = .connected connection → connection.closedAt = none →
    state.clock ≤ connection.deadline + lateness

/-- An event that is new was pushed just now, in a room that the socket was in. -/
theorem received_step (hstep : step hash number readToken state action = some after) {id : SocketId}
    {connection next : Connection} (hsocket : state.sockets id = .connected connection)
    (hnext : after.sockets id = .connected next) {push : Push} (hpush : push ∈ next.received) :
    push ∈ connection.received ∨
      push.time = state.clock ∧ connection.closedAt = none ∧ connection.rooms ≠ [] := by
  have hchanges := socket_changes hstep id
  rw [hnext] at hchanges
  generalize htarget : Socket.connected next = target at hchanges
  generalize after.emitted = emitted at hchanges
  cases hchanges with
  | keep =>
      rw [hsocket] at htarget
      cases htarget
      exact .inl hpush
  | opens socket hopens => exact absurd hsocket hopens.not_connected
  | close old hold =>
      rw [hsocket] at hold
      cases hold
      cases htarget
      exact .inl hpush
  | join old call principal orderId hold hjoin =>
      rw [hsocket] at hold
      cases hold
      cases htarget
      unfold Connection.join at hpush
      split at hpush <;> exact .inl hpush
  | push orderId status event hevent =>
      rw [hsocket] at htarget
      cases htarget
      unfold Connection.push at hpush
      split at hpush
      · rename_i hgets
        rcases List.mem_append.mp hpush with hold | hnew
        · exact .inl hold
        · refine .inr ⟨by rw [List.mem_singleton.mp hnew], hgets.1, fun hnone => ?_⟩
          rw [Connection.inRoom, hnone] at hgets
          cases hgets.2
      · exact .inl hpush

/-- A socket is sent nothing after its token has expired, but for as long as its timer is late. -/
theorem pushes_expire {database : Database} {id : SocketId} {lateness : Nat}
    (hreach : Reach (step hash number readToken) (fun state _ => Punctual id lateness state)
      (State.init database) state)
    {connection : Connection} (hsocket : state.sockets id = .connected connection) :
    ∀ push ∈ connection.received,
      push.time ≤ seconds connection.principal.expiresAt + lateness := by
  refine hreach.invariant (fun state => ∀ connection, state.sockets id = .connected connection →
    ∀ push ∈ connection.received,
      push.time ≤ seconds connection.principal.expiresAt + lateness) ?_ ?_ connection hsocket
  · intro connection hsocket
    cases hsocket
  · intro before action after hbefore ih hpunctual hstep next hnext push hpush
    have haccess := accessInv_reach (accessInv_init database) hbefore
    by_cases hold : ∃ connection, before.sockets id = .connected connection
    · obtain ⟨connection, hsocket⟩ := hold
      obtain ⟨found, hfound, hsame, -⟩ := connected_step hstep hsocket
      rw [hnext] at hfound
      cases hfound
      rw [hsame.principal]
      rcases received_step hstep hsocket hnext hpush with hreceived | ⟨htime, hopen, hrooms⟩
      · exact ih connection hsocket push hreceived
      · rcases haccess.connected id connection hsocket with hinTime | ⟨-, hnone⟩
        · have hlate := hpunctual connection hsocket hopen
          have hdue := hinTime.2
          omega
        · exact absurd hnone hrooms
    · obtain ⟨_, _, _, -, rfl⟩ :=
        new_connected hstep hnext fun connection hsocket => hold ⟨connection, hsocket⟩
      cases hpush

omit [DecidableEq Hash] in
theorem punctual_iff {id : SocketId} {lateness : Nat} :
    (match state.sockets id with
      | .connected connection =>
          connection.closedAt.isSome || decide (state.clock ≤ connection.deadline + lateness)
      | _ => true) = true ↔ Punctual id lateness state := by
  unfold Punctual
  cases state.sockets id with
  | connected connection =>
      cases hclosed : connection.closedAt <;> simp [hclosed]
  | _ => simp

instance (id : SocketId) (lateness : Nat) (state : State Hash) :
    Decidable (Punctual id lateness state) :=
  decidable_of_iff _ punctual_iff

/-- The timer is 3 ms late, and there is an event at that moment. -/
def lateTimer : List (Action Token) :=
  loginUser1 ++ connectSocket 5 ++ joinOrder 11 5 ['8'] ++
    [.enter 11, .auth (.tick 600003), .emitStatusChanged 8 "paid", .expire 5,
      .emitStatusChanged 8 "shipped"]

theorem pushes_expire_late :
    ∃ (state : State Token) (connection : Connection),
      Reach (step id readDecimal readToken1) (fun state _ => Punctual 5 3 state)
        (State.init Database.shared) state ∧
      state.sockets 5 = .connected connection ∧ connection.received = [⟨⟨1, 8, "paid"⟩, 600003⟩] ∧
      ∀ push ∈ connection.received, push.time ≤ seconds connection.principal.expiresAt + 3 := by
  obtain ⟨state, hreach, hcheck⟩ : ∃ state : State Token, Reach (step id readDecimal readToken1)
      (fun state _ => Punctual 5 3 state) (State.init Database.shared) state ∧
      decide (state.sockets 5 = .connected ⟨(signAccess 1 .customer 0 100 0).principal, 0,
        0, 600000,
          [⟨roomName (.integer 8), 0⟩], some 1, [⟨⟨1, 8, "paid"⟩, 600003⟩]⟩) = true :=
    exists_reach_of_runWithin lateTimer (by decide +kernel)
  have hsocket := of_decide_eq_true hcheck
  exact ⟨state, _, hreach, hsocket, rfl, pushes_expire hreach hsocket⟩

/-! ### Tokens that are revoked -/

/-- Only the service can sign: a text that passes for a token is one that it has signed. -/
def Unforged (readToken : Text → Option AccessToken) (state : State Hash) : Action Hash → Prop
  | .handshake _ sent =>
      ((extractToken sent).bind readToken).all (fun token => token ∈ state.auth.signed) = true
  | _ => True

instance (readToken : Text → Option AccessToken) (state : State Hash) (action : Action Hash) :
    Decidable (Unforged readToken state action) :=
  match action with
  | .handshake _ _ => inferInstanceAs (Decidable (_ = true))
  | .auth _ | .setDatabase _ | .isDenied _ | .denylistFails _ | .handleConnection _ | .leave
      _ | .expire _
  | .join _ _ _ | .joinIsDenied _ | .joinDenylistFails _ | .canView _ | .canViewFails _ | .enter _
  | .emitStatusChanged _ _ => inferInstanceAs (Decidable True)

/-- The token was logged out, or it is of a family that was reused and had been signed by then. -/
def Revoked (state : State Hash) (principal : AccessPrincipal) : Prop :=
  (∃ logout ∈ state.auth.logouts, principal.jti = logout.1.jti) ∨
  ∃ denial ∈ state.auth.denied, principal.familyId = denial.1 ∧
    seconds principal.expiresAt ≤ denial.2 + seconds accessTtlSec

/-- The holder of a socket, as its token has it. -/
def Socket.principal : Socket → Option AccessPrincipal
  | .checking principal _ | .admitted principal _ _ => some principal
  | .connected connection => some connection.principal
  | .absent | .refused _ => none

def Socket.rooms : Socket → List Membership
  | .connected connection => connection.rooms
  | .absent | .checking _ _ | .admitted _ _ _ | .refused _ => []

/-- The denylist has yet to be asked about the handshake. -/
def Socket.unchecked : Socket → Bool
  | .absent | .checking _ _ => true
  | .admitted _ _ _ | .connected _ | .refused _ => false

/-- The socket of a join that the denylist has let through. -/
def Join.allowed : Join → Option (SocketId × AccessPrincipal)
  | .viewing id principal _ | .entering id principal _ => some (id, principal)
  | .idle | .checking _ _ _ | .acked _ | .threw => none

def Signed (state : State Hash) : Prop :=
  ∀ id principal, (state.sockets id).principal = some principal →
    ∃ token ∈ state.auth.signed, token.principal = principal

omit [DecidableEq Hash] in
theorem Opens.principal {before : State Hash} {socket next : Socket} {principal : AccessPrincipal}
    (hopens : Opens readToken before action socket next)
    (hunforged : Unforged readToken before action) (hnext : next.principal = some principal) :
    socket.principal = some principal ∨ ∃ token ∈ before.auth.signed,
      token.principal = principal := by
  cases hopens with
  | verify id sent token haction htoken hlive =>
      subst haction
      rw [Unforged, htoken, Option.all_some, decide_eq_true_eq] at hunforged
      cases hnext
      exact .inr ⟨token, hunforged, rfl⟩
  | refuse socket error hsocket => cases hnext
  | accept principal verifiedAt hallowed => exact .inl hnext
  | connect principal verifiedAt checkedAt => exact .inl hnext

theorem signed_step (hstep : step hash number readToken state action = some after)
    {token : AccessToken} (htoken : token ∈ state.auth.signed) : token ∈ after.auth.signed := by
  rcases auth_step hstep with hauth | ⟨inner, hauth⟩
  · rwa [hauth]
  · exact AuthService.signed_step hauth htoken

theorem Signed.step (hsigned : Signed state) (hunforged : Unforged readToken state action)
    (hstep : step hash number readToken state action = some after) : Signed after := by
  intro id principal hprincipal
  have hold : (state.sockets id).principal = some principal →
      ∃ token ∈ after.auth.signed, token.principal = principal := by
    intro hold
    obtain ⟨token, htoken, hissued⟩ := hsigned id principal hold
    exact ⟨token, signed_step hstep htoken, hissued⟩
  have hchanges := socket_changes hstep id
  generalize after.sockets id = target at hchanges hprincipal
  generalize after.emitted = emitted at hchanges
  cases hchanges with
  | keep => exact hold hprincipal
  | opens socket hopens =>
      rcases hopens.principal hunforged hprincipal with hbefore | ⟨token, htoken, hissued⟩
      · exact hold hbefore
      · exact ⟨token, signed_step hstep htoken, hissued⟩
  | close old hsocket => exact hold (by rw [hsocket]; exact hprincipal)
  | join old call mover orderId hsocket hjoin =>
      refine hold ?_
      rw [hsocket, Socket.principal,
        ← (same_join old (roomName orderId) state.emitted.length).principal]
      exact hprincipal
  | push orderId status event hevent =>
      refine hold ?_
      cases hsocket : state.sockets id with
      | connected old =>
          rw [hsocket] at hprincipal
          rw [Socket.principal, ← (same_push old event state.clock).principal]
          exact hprincipal
      | _ => rw [hsocket] at hprincipal; exact hprincipal

omit [DecidableEq Hash] in
/-- Whoever is not on the denylist with a revoked token holds one that has expired. -/
theorem expired_of_allowed (hinv : AuthService.DenylistInv hash state.auth)
    {principal : AccessPrincipal} (hrevoked : Revoked state principal)
    (hsigned : ∃ token ∈ state.auth.signed, token.principal = principal)
    (hallowed : state.auth.denylist.isDenied principal.jti principal.familyId state.clock = false) :
    seconds principal.expiresAt ≤ state.clock := by
  obtain ⟨token, htoken, rfl⟩ := hsigned
  rcases hrevoked with ⟨logout, hlogout, hjti⟩ | ⟨denial, hdenial, hfamily, hexpires⟩
  · exact AuthService.expired_of_not_denied hinv hlogout htoken hjti hallowed
  · rw [hfamily] at hallowed
    exact Nat.le_trans hexpires (AuthService.ttl_of_not_denied hinv hdenial hallowed)

theorem revoked_step (hstep : step hash number readToken state action = some after)
    {principal : AccessPrincipal} (hrevoked : Revoked state principal) :
    Revoked after principal := by
  rcases auth_step hstep with hauth | ⟨inner, hauth⟩
  · rwa [Revoked, hauth]
  · rcases hrevoked with ⟨logout, hlogout, hjti⟩ | ⟨denial, hdenial, hdenied⟩
    · exact .inl ⟨logout, AuthService.logouts_step hauth hlogout, hjti⟩
    · exact .inr ⟨denial, AuthService.denied_step hauth hdenial, hdenied⟩

/-- `checked` and `connected`: a handshake that was looked up since, `allowed`: a join that was, and
`entered`: what the socket is in while its token is alive. -/
structure CutOff (id : SocketId) (principal : AccessPrincipal) (late : Prop)
    (rooms : List Membership) (state : State Hash) : Prop where
  revoked : Revoked state principal
  fresh : (∀ connection, state.sockets id ≠ .connected connection) → rooms = []
  checked : late → ∀ verifiedAt checkedAt,
    state.sockets id = .admitted principal verifiedAt checkedAt →
    seconds principal.expiresAt ≤ checkedAt
  connected : late → ∀ connection, state.sockets id = .connected connection →
    connection.principal = principal → seconds principal.expiresAt ≤ connection.checkedAt
  allowed : ∀ call, (state.joins call).allowed = some (id, principal) →
    seconds principal.expiresAt ≤ state.clock
  entered : ∀ connection, state.sockets id = .connected connection →
    connection.principal = principal →
    state.clock < seconds principal.expiresAt → connection.rooms = rooms

theorem Join.waiting_of_allowed {join : Join} {mover : SocketId × AccessPrincipal}
    (hallowed : join.allowed = some mover) : join.waiting = some mover := by
  cases join with
  | viewing id principal orderId => exact hallowed
  | entering id principal orderId => exact hallowed
  | _ => cases hallowed

/-- A join that the denylist has let through was let through before the step, or just now. -/
theorem allowed_step (hstep : step hash number readToken state action = some after) {call : Call}
    {id : SocketId} {principal : AccessPrincipal}
    (hallowed : (after.joins call).allowed = some (id, principal)) :
    (state.joins call).allowed = some (id, principal) ∨
      (state.joins call).waiting = some (id, principal) ∧
        state.auth.denylist.isDenied principal.jti principal.familyId state.clock = false := by
  rcases join_changes hstep call with hkept | hadvances | ⟨_, _, _, -, hacked⟩
  · exact .inl (hkept ▸ hallowed)
  · generalize state.joins call = before at hadvances ⊢
    generalize after.joins call = join at hadvances hallowed
    cases hadvances with
    | begin id connection orderId hsocket hopen hlive => cases hallowed
    | view id principal orderId hnotDenied =>
        cases hallowed
        exact .inr ⟨rfl, hnotDenied⟩
    | grant id principal orderId hview => exact .inl hallowed
    | refuse join reason => cases hallowed
    | fail join => cases hallowed
  · rw [hacked] at hallowed
    cases hallowed

theorem admitted_step (hstep : step hash number readToken state action = some after) {id : SocketId}
    {principal : AccessPrincipal} {verifiedAt checkedAt : Nat}
    (hadmitted : after.sockets id = .admitted principal verifiedAt checkedAt) :
    state.sockets id = .admitted principal verifiedAt checkedAt ∨
      state.sockets id = .checking principal verifiedAt ∧ checkedAt = state.clock ∧
        state.auth.denylist.isDenied principal.jti principal.familyId state.clock = false := by
  have hchanges := socket_changes hstep id
  rw [hadmitted] at hchanges
  generalize htarget : Socket.admitted principal verifiedAt checkedAt = target at hchanges
  generalize after.emitted = emitted at hchanges
  cases hchanges with
  | keep => exact .inl rfl
  | opens socket hopens =>
      subst htarget
      generalize state.sockets id = before at hopens ⊢
      cases hopens with
      | accept principal verifiedAt hallowed => exact .inr ⟨rfl, rfl, hallowed⟩
  | close old hold => cases htarget
  | join old call mover orderId hold hjoin => cases htarget
  | push orderId status event hevent =>
      cases hold : state.sockets id with
      | admitted principal' verifiedAt' checkedAt' =>
          rw [hold] at htarget
          cases htarget
          exact .inl rfl
      | _ => rw [hold] at htarget; cases htarget

section Revocation

variable {id : SocketId} {principal : AccessPrincipal} {late : Prop} {rooms : List Membership}

theorem CutOff.step (hcut : CutOff id principal late rooms state) (haccess : AccessInv hash state)
    (hsigned : Signed state) (hstep : step hash number readToken state action = some after) :
    CutOff id principal late rooms after := by
  have hclock := (haccess.auth_step hstep).2
  have hexpired : ∀ {mover : Socket}, state.sockets id = mover → mover.principal = some principal →
      state.auth.denylist.isDenied principal.jti principal.familyId state.clock = false →
      seconds principal.expiresAt ≤ state.clock := by
    intro mover hsocket hprincipal hallowed
    exact expired_of_allowed haccess.auth hcut.revoked
      (hsigned id principal (hsocket ▸ hprincipal)) hallowed
  have hopened : ∀ {next : Connection}, after.sockets id = .connected next →
      (∃ connection, state.sockets id = .connected connection) ∨
        (∀ connection, state.sockets id ≠ .connected connection) ∧ ∃ principal verifiedAt checkedAt,
          state.sockets id = .admitted principal verifiedAt checkedAt ∧
          next = .opened principal verifiedAt checkedAt state.clock := by
    intro next hnext
    by_cases hold : ∃ connection, state.sockets id = .connected connection
    · exact .inl hold
    · have hnew : ∀ connection, state.sockets id ≠ .connected connection :=
        fun connection hsocket => hold ⟨connection, hsocket⟩
      exact .inr ⟨hnew, new_connected hstep hnext hnew⟩
  refine ⟨revoked_step hstep hcut.revoked, ?_, ?_, ?_, ?_, ?_⟩
  · intro hnone
    refine hcut.fresh fun connection hsocket => ?_
    obtain ⟨next, hnext, -⟩ := connected_step hstep hsocket
    exact hnone next hnext
  · intro hlate verifiedAt checkedAt hadmitted
    rcases admitted_step hstep hadmitted with hold | ⟨hchecking, rfl, hallowed⟩
    · exact hcut.checked hlate verifiedAt checkedAt hold
    · exact hexpired hchecking rfl hallowed
  · intro hlate next hnext hprincipal
    rcases hopened hnext with ⟨connection, hsocket⟩ |
      ⟨-, holder, verifiedAt, checkedAt, hadmitted, rfl⟩
    · obtain ⟨found, hfound, hsame, -⟩ := connected_step hstep hsocket
      rw [hnext] at hfound
      cases hfound
      rw [hsame.checkedAt]
      exact hcut.connected hlate connection hsocket (hsame.principal.symm.trans hprincipal)
    · cases hprincipal
      exact hcut.checked hlate verifiedAt checkedAt hadmitted
  · intro call hallowed
    rcases allowed_step hstep hallowed with hold | ⟨hwaiting, hnotDenied⟩
    · exact Nat.le_trans (hcut.allowed call hold) hclock
    · obtain ⟨connection, hsocket, rfl, -⟩ := haccess.joins call id principal hwaiting
      exact Nat.le_trans (hexpired hsocket rfl hnotDenied) hclock
  · intro next hnext hprincipal hlive
    have hlive := Nat.lt_of_le_of_lt hclock hlive
    rcases hopened hnext with ⟨connection, hsocket⟩ | ⟨hnew, holder, verifiedAt, checkedAt, -, rfl⟩
    · obtain ⟨found, hfound, hsame, hrooms⟩ := connected_step hstep hsocket
      rw [hnext] at hfound
      cases hfound
      have hholder : connection.principal = principal := hsame.principal.symm.trans hprincipal
      rcases hrooms with hrooms | ⟨call, mover, orderId, count, hjoin, -⟩
      · rw [hrooms]
        exact hcut.entered connection hsocket hholder hlive
      · obtain ⟨connection', hsocket', hmover, -⟩ :=
          haccess.joins call id mover (congrArg Join.waiting hjoin)
        rw [hsocket] at hsocket'
        cases hsocket'
        have hexpired := hcut.allowed call (by rw [hjoin, Join.allowed, ← hmover, hholder])
        omega
    · exact (hcut.fresh hnew).symm

end Revocation

theorem signed_reach {start : State Hash} (hstart : Signed start)
    (hreach : Reach (step hash number readToken) (Unforged readToken) start state) : Signed state :=
  hreach.invariant Signed hstart fun _ _ _ _ hsigned hunforged hstep => hsigned.step hunforged hstep

/-- A token that is revoked opens nothing more, whatever waits for what. A socket whose handshake
the denylist had not been asked about by then is sent no event, ever; one that was connected enters
no more rooms while its token is alive, unless the denylist had let a join of it through before. -/
theorem revoked_unseen {database : Database} {start : State Hash} {id : SocketId}
    {connection : Connection}
    (hbefore : Reach (step hash number readToken) (Unforged readToken) (State.init database) start)
    (hrevoked : Revoked start connection.principal)
    (hreach : Reach (step hash number readToken) (Unforged readToken) start state)
    (hsocket : state.sockets id = .connected connection) :
    ((start.sockets id).unchecked = true → connection.rooms = [] ∧ connection.received = []) ∧
    ((∀ call, (start.joins call).allowed ≠ some (id, connection.principal)) →
      state.clock < seconds connection.principal.expiresAt →
      connection.rooms = (start.sockets id).rooms) := by
  have haccess := accessInv_reach (accessInv_init database) hbefore
  have hsigned : Signed start := signed_reach (fun _ _ hprincipal => by cases hprincipal) hbefore
  have hcut : (∀ call, (start.joins call).allowed ≠ some (id, connection.principal)) →
      CutOff id connection.principal ((start.sockets id).unchecked = true) (start.sockets id).rooms
        state := by
    intro hnone
    refine hreach.invariant _ ⟨hrevoked, ?_, ?_, ?_,
      fun call hcall => absurd hcall (hnone call), ?_⟩ ?_
    · intro hnew
      cases hstart : start.sockets id with
      | connected old => exact absurd hstart (hnew old)
      | _ => rfl
    · intro hlate verifiedAt checkedAt hadmitted
      rw [hadmitted] at hlate
      cases hlate
    · intro hlate old hold
      rw [hold] at hlate
      cases hlate
    · intro old hold _ _
      rw [hold]
      rfl
    · intro middle _ _ hmiddle hcut _ hstep
      exact hcut.step (accessInv_reach haccess hmiddle) (signed_reach hsigned hmiddle) hstep
  refine ⟨fun hlate => ?_, fun hnone hlive => (hcut hnone).entered connection hsocket rfl hlive⟩
  -- a socket that is not connected yet has no joins
  have hnone : ∀ call, (start.joins call).allowed ≠ some (id, connection.principal) := by
    intro call hallowed
    obtain ⟨old, hold, -⟩ := haccess.joins call id _ (Join.waiting_of_allowed hallowed)
    rw [hold] at hlate
    cases hlate
  have hchecked := (hcut hnone).connected hlate connection hsocket rfl
  have hrooms : connection.rooms = [] := by
    rcases (accessInv_reach haccess hreach).connected id connection hsocket with hinTime |
      ⟨-, hrooms⟩
    · exact absurd hinTime.1 (Nat.not_lt.mpr hchecked)
    · exact hrooms
  refine ⟨hrooms, List.eq_nil_iff_forall_not_mem.mpr fun push hpush => ?_⟩
  have hupToDate :=
    (inv_reach (inv_reach (inv_init database) hbefore) hreach).connected id connection hsocket
  have hroom := inRoom_of_received hupToDate hpush
  rw [Connection.inRoom, hrooms] at hroom
  cases hroom

def logoutUser1 : List (Action Token) :=
  loginUser1 ++ [.auth (.logout 3 (signAccess 1 .customer 0 100 0)),
    .auth (.statement (.visit 3 (sampleToken 'A'))), .auth (.statement (.commit 3)),
    .auth (.denyAccess 3)]

/-- The token expires while the handshake waits for Redis: the socket is connected, and its join
refused. -/
def lateSocket : List (Action Token) :=
  [.auth (.tick 599999), .handshake 5 ⟨some (.string ['1']), none⟩, .auth (.tick 1), .isDenied 5,
    .handleConnection 5, .join 11 5 (some (.object [(orderIdKey, .string ['8'])])),
    .emitStatusChanged 8 "paid"]

theorem revoked_unseen_late :
    ∃ (start state : State Token) (connection : Connection),
      start.auth.logouts = [((signAccess 1 .customer 0 100 0).principal, 0)] ∧
      Reach (step id readDecimal readToken1) (Unforged readToken1) start state ∧
      state.sockets 5 = .connected connection ∧
      state.joins 11 = .acked ⟨false, none, some "unauthorized"⟩ ∧
      connection.rooms = [] ∧ connection.received = [] := by
  obtain ⟨start, hstart⟩ : ∃ start : State Token, runWithin (step id readDecimal readToken1)
      (Unforged readToken1) (State.init Database.shared) logoutUser1 = some start :=
    Option.isSome_iff_exists.mp (by decide +kernel)
  have hchecks : ((runWithin (step id readDecimal readToken1) (Unforged readToken1)
      (State.init Database.shared) logoutUser1).bind fun start : State Token => some (decide (
        (start.sockets 5).unchecked = true ∧
        start.auth.logouts = [((signAccess 1 .customer 0 100 0).principal, 0)]) &&
      (runWithin (step id readDecimal readToken1) (Unforged readToken1) start lateSocket).any
      fun state =>
        decide (state.sockets 5 = .connected ⟨(signAccess 1 .customer 0 100 0).principal,
          599999, 600000,
            600001, [], some 0, []⟩ ∧
          state.joins 11 = .acked ⟨false, none, some "unauthorized"⟩))) = some true := by
    decide +kernel
  rw [hstart, Option.bind_some, Option.some.injEq, Bool.and_eq_true, decide_eq_true_eq] at hchecks
  obtain ⟨⟨hunchecked, hlogouts⟩, hrun⟩ := hchecks
  obtain ⟨state, hreach, hcheck⟩ := exists_reach_of_runWithin _ hrun
  obtain ⟨hsocket, hacked⟩ := of_decide_eq_true hcheck
  have hrevoked : Revoked start (signAccess 1 .customer 0 100 0).principal :=
    .inl ⟨_, by rw [hlogouts]; exact List.mem_singleton_self _, rfl⟩
  have hunseen := revoked_unseen (reach_of_runWithin hstart) hrevoked hreach hsocket
  exact ⟨start, state, _, hlogouts, hreach, hsocket, hacked, hunseen.1 hunchecked⟩

end Marketplace.Gateway
