import Marketplace.Auth.DeniedTokens
import Marketplace.Http.Guards
import Marketplace.Orders.OrderEvents
import Marketplace.Orders.OrdersGateway

/-!
# The sockets of `OrdersGateway`

A socket from its handshake to its end: the middleware checks the token, `handleConnection` sets the
timer that cuts the connection when the token expires, `join` enters rooms, and every status event
is emitted to the sockets in the room of its order. The handshake and `join` wait for Redis and for
the database, and everything else moves meanwhile.
-/

namespace Marketplace.Gateway

open Checkout (JsNumber)
open OrderEvents (OrderStatusEvent OrderEventsService)
open OrdersService (Database JoinAck roomName toNumber orderIdKey canView)
open RefreshToken (Token)
open Transition

abbrev SocketId := Nat

/-- What a client sends along: `handshake.auth.token` and `handshake.headers.authorization`. -/
structure Handshake where
  authToken : Option Json
  authorization : Option Text

def extractToken (handshake : Handshake) : Option Text :=
  match handshake.authToken with
  | some (.string (char :: rest)) => some (char :: rest)
  | _ => handshake.authorization.bind Http.bearerPattern

/-- A room that a socket is in, and how many events there had been when it came. -/
structure Membership where
  room : Text
  since : Nat
  deriving DecidableEq

/-- An `order.status` message, and when it was emitted. -/
structure Push where
  event : OrderStatusEvent
  time : Nat
  deriving DecidableEq

/-- `deadline` is when the timer is due; `closedAt` counts the events before the disconnect. -/
structure Connection where
  principal : AccessPrincipal
  verifiedAt : Nat
  checkedAt : Nat
  deadline : Nat
  rooms : List Membership
  closedAt : Option Nat
  received : List Push
  deriving DecidableEq

inductive Socket where
  | absent
  /-- The middleware waits for `denylist.isDenied`. -/
  | checking (principal : AccessPrincipal) (verifiedAt : Nat)
  /-- `next()` was called: `handleConnection` is next. -/
  | admitted (principal : AccessPrincipal) (verifiedAt checkedAt : Nat)
  | connected (connection : Connection)
  | refused (error : String)
  deriving DecidableEq

/-- What a call of `handleJoin` waits for. -/
inductive Join where
  | idle
  | checking (socket : SocketId) (principal : AccessPrincipal) (orderId : JsNumber)
  | viewing (socket : SocketId) (principal : AccessPrincipal) (orderId : JsNumber)
  /-- The order may be viewed: `client.join` is next. -/
  | entering (socket : SocketId) (principal : AccessPrincipal) (orderId : JsNumber)
  | acked (ack : JoinAck)
  | threw
  deriving DecidableEq

/-- `emitted` is history: every event so far. -/
structure State (Hash : Type) where
  auth : AuthService.State Hash
  database : Database
  service : OrderEventsService
  sockets : SocketId → Socket
  joins : Call → Join
  emitted : List OrderStatusEvent

inductive Action (Hash : Type) where
  /-- Any step of a login, a refresh or a logout, and the clock. -/
  | auth (inner : AuthService.Action Hash)
  | setDatabase (database : Database)
  | handshake (socket : SocketId) (handshake : Handshake)
  | isDenied (socket : SocketId)
  | denylistFails (socket : SocketId)
  | handleConnection (socket : SocketId)
  /-- The client leaves, or the network cuts it off. -/
  | leave (socket : SocketId)
  /-- The timer of `handleConnection`. -/
  | expire (socket : SocketId)
  | join (call : Call) (socket : SocketId) (payload : Option Json)
  | joinIsDenied (call : Call)
  | joinDenylistFails (call : Call)
  | canView (call : Call)
  | canViewFails (call : Call)
  | enter (call : Call)
  | emitStatusChanged (orderId : OrderId) (status : String)

/-- The delay that `setTimeout` makes of a number: 1 of what is below it or no `int32`. -/
def timerDelay (delay : Nat) : Nat :=
  if 1 ≤ delay ∧ delay ≤ 2147483647 then delay else 1

/-- A socket after `handleConnection`, its timer set to `max(expiresAt * 1000 - now, 0)`. -/
def Connection.opened (principal : AccessPrincipal) (verifiedAt checkedAt now : Nat) : Connection :=
  ⟨principal, verifiedAt, checkedAt, now + timerDelay (seconds principal.expiresAt - now), [],
    none, []⟩

def Connection.inRoom (connection : Connection) (room : Text) : Bool :=
  connection.rooms.any fun membership => membership.room = room

/-- `server.to(room).emit`, as one socket sees it. -/
def Connection.push (connection : Connection) (event : OrderStatusEvent)
    (time : Nat) : Connection :=
  if connection.closedAt = none ∧ connection.inRoom (roomName (.integer event.orderId)) = true then
    { connection with received := connection.received ++ [⟨event, time⟩] }
  else connection

/-- `client.join(room)`: a room is entered once, and after the disconnect none is. -/
def Connection.join (connection : Connection) (room : Text) (count : Nat) : Connection :=
  if connection.closedAt = none ∧ connection.inRoom room = false then
    { connection with rooms := connection.rooms ++ [⟨room, count⟩] }
  else connection

def Connection.close (connection : Connection) (count : Nat) : Connection :=
  { connection with closedAt := some (connection.closedAt.getD count) }

def Socket.push (event : OrderStatusEvent) (time : Nat) : Socket → Socket
  | .connected connection => .connected (connection.push event time)
  | socket => socket

section Steps

variable {Hash : Type} (state : State Hash)

def State.init (database : Database) : State Hash where
  auth := AuthService.State.init
  database := database
  service := .init
  sockets := fun _ => .absent
  joins := fun _ => .idle
  emitted := []

def State.clock : Nat := state.auth.tokens.clock

def State.setSocket (id : SocketId) (socket : Socket) : State Hash :=
  { state with sockets := Function.update state.sockets id socket }

def State.setJoin (call : Call) (join : Join) : State Hash :=
  { state with joins := Function.update state.joins call join }

/-- The connection of a socket becomes another one. -/
def State.modify (id : SocketId) (change : Connection → Connection) : State Hash :=
  match state.sockets id with
  | .connected connection => state.setSocket id (.connected (change connection))
  | _ => state

def State.disconnect (id : SocketId) : State Hash :=
  state.modify id fun connection => connection.close state.emitted.length

section Sockets

variable (readToken : Text → Option AccessToken) (id : SocketId)

/-- `authenticate` up to its `await`. -/
def beginAuth (handshake : Handshake) (now : Nat) : Socket :=
  match extractToken handshake with
  | none => .refused "unauthorized"
  | some text =>
      match (readToken text).bind (verifyAccess now) with
      | none => .refused "unauthorized"
      | some principal => .checking principal now

def handshake (handshake : Handshake) : Option (State Hash) :=
  match state.sockets id with
  | .absent => some (state.setSocket id (beginAuth readToken handshake state.clock))
  | _ => none

def isDenied : Option (State Hash) :=
  match state.sockets id with
  | .checking principal verifiedAt =>
      some (state.setSocket id
        (if state.auth.denylist.isDenied principal.jti principal.familyId state.clock then
          .refused "unauthorized"
        else .admitted principal verifiedAt state.clock))
  | _ => none

def denylistFails : Option (State Hash) :=
  match state.sockets id with
  | .checking _ _ => some (state.setSocket id (.refused "service_unavailable"))
  | _ => none

def handleConnection : Option (State Hash) :=
  match state.sockets id with
  | .admitted principal verifiedAt checkedAt =>
      some (state.setSocket id (.connected (.opened principal verifiedAt checkedAt state.clock)))
  | _ => none

def leave : Option (State Hash) :=
  match state.sockets id with
  | .connected _ => some (state.disconnect id)
  | _ => none

def expire : Option (State Hash) :=
  match state.sockets id with
  | .connected connection =>
      if connection.deadline ≤ state.clock then some (state.disconnect id) else none
  | _ => none

end Sockets

section Joins

variable (number : Text → JsNumber) (call : Call)

def refusedAck (reason : String) : Join := .acked ⟨false, none, some reason⟩

/-- `handleJoin` up to its first `await`. -/
def join (id : SocketId) (payload : Option Json) : Option (State Hash) :=
  match state.joins call, state.sockets id with
  | .idle, .connected connection =>
      if connection.closedAt ≠ none then none
      else if seconds connection.principal.expiresAt ≤ state.clock then
        some ((state.disconnect id).setJoin call (refusedAck "unauthorized"))
      else
        match toNumber number (payload.bind fun payload => payload.get orderIdKey) with
        | none => some (state.setJoin call .threw)
        | some orderId =>
            if orderId.isInteger then
              some (state.setJoin call (.checking id connection.principal orderId))
            else some (state.setJoin call (refusedAck "orderId is required"))
  | _, _ => none

def joinIsDenied : Option (State Hash) :=
  match state.joins call with
  | .checking id principal orderId =>
      if state.auth.denylist.isDenied principal.jti principal.familyId state.clock then
        some ((state.disconnect id).setJoin call (refusedAck "unauthorized"))
      else some (state.setJoin call (.viewing id principal orderId))
  | _ => none

def joinDenylistFails : Option (State Hash) :=
  match state.joins call with
  | .checking _ _ _ => some (state.setJoin call (refusedAck "service_unavailable"))
  | _ => none

def viewOrder : Option (State Hash) :=
  match state.joins call with
  | .viewing id principal orderId =>
      match canView number state.database orderId principal.userId with
      | .ok true => some (state.setJoin call (.entering id principal orderId))
      | .ok false => some (state.setJoin call (refusedAck "not_found"))
      | .error _ => some (state.setJoin call .threw)
  | _ => none

def canViewFails : Option (State Hash) :=
  match state.joins call with
  | .viewing _ _ _ => some (state.setJoin call .threw)
  | _ => none

def enter : Option (State Hash) :=
  match state.joins call with
  | .entering id _ orderId =>
      some ((state.modify id fun connection =>
          connection.join (roomName orderId) state.emitted.length).setJoin call
        (.acked ⟨true, some (roomName orderId), none⟩))
  | _ => none

end Joins

/-- The subscription of `afterInit`, called by the event bus. -/
def emitStatusChanged (orderId : OrderId) (status : String) : State Hash :=
  let (event, service) := state.service.emitStatusChanged orderId status
  { state with
    service := service
    sockets := fun id => (state.sockets id).push event state.clock
    emitted := state.emitted ++ [event] }

end Steps

def step {Hash : Type} [DecidableEq Hash] (hash : Token → Hash) (number : Text → JsNumber)
    (readToken : Text → Option AccessToken) (state : State Hash) : Action Hash → Option (State Hash)
  | .auth inner =>
      (AuthService.step hash state.auth inner).map fun auth => { state with auth := auth }
  | .setDatabase database => some { state with database := database }
  | .handshake socket sent => handshake state readToken socket sent
  | .isDenied socket => isDenied state socket
  | .denylistFails socket => denylistFails state socket
  | .handleConnection socket => handleConnection state socket
  | .leave socket => leave state socket
  | .expire socket => expire state socket
  | .join call socket payload => join state number call socket payload
  | .joinIsDenied call => joinIsDenied state call
  | .joinDenylistFails call => joinDenylistFails state call
  | .canView call => viewOrder state number call
  | .canViewFails call => canViewFails state call
  | .enter call => enter state call
  | .emitStatusChanged orderId status => some (emitStatusChanged state orderId status)

end Marketplace.Gateway
