import Marketplace.Lib.NumberedLog
import Marketplace.Lib.Transition
import Marketplace.Outbox.Outbox

/-!
# `OrderEventsService` and its listeners

The bus of one server process: `emitStatusChanged` numbers an event, keeps the last ones and hands
it to every subscription before it returns. A subscription belongs to an SSE response, which replays
from the buffer first, or to a socket that has joined the room of an order, which does not.
-/

namespace Marketplace.OrderEvents

open NumberedLog Transition

structure OrderStatusEvent where
  id : Nat
  orderId : OrderId
  status : String
  deriving DecidableEq

def historyLimit : Nat := 200

structure OrderEventsService where
  history : List OrderStatusEvent
  nextEventId : Nat

namespace OrderEventsService

def init : OrderEventsService := ⟨[], 1⟩

def emitStatusChanged (service : OrderEventsService) (orderId : OrderId) (status : String) :
    OrderStatusEvent × OrderEventsService :=
  let event : OrderStatusEvent := ⟨service.nextEventId, orderId, status⟩
  let history := service.history ++ [event]
  (event,
    { history := if historyLimit < history.length then history.tail else history
      nextEventId := service.nextEventId + 1 })

def getEventsAfter (service : OrderEventsService) (lastEventId : Int) : List OrderStatusEvent :=
  service.history.filter fun event => lastEventId < event.id

end OrderEventsService

/-- How a client came to listen. A missing `Last-Event-ID` is 0. -/
inductive Source where
  | streamEvents (lastEventId : Int)
  | join
  deriving DecidableEq

/-- One SSE response, or one socket in one room: what was written to it, and how many events had
been emitted when it was opened and when it was closed. -/
structure Connection where
  orderId : OrderId
  source : Source
  received : List OrderStatusEvent
  openedAt : Nat
  closedAt : Option Nat
  deriving DecidableEq

abbrev ConnectionId := Nat

structure State where
  service : OrderEventsService
  connections : ConnectionId → Option Connection
  /-- Every event so far. -/
  emitted : List OrderStatusEvent

inductive Action where
  | emitStatusChanged (orderId : OrderId) (status : String)
  /-- The part of `streamEvents` after `assertCanView`, which does not yield. -/
  | streamEvents (id : ConnectionId) (orderId : OrderId) (lastEventId : Int)
  /-- `client.join(room)`. -/
  | join (id : ConnectionId) (orderId : OrderId)
  | close (id : ConnectionId)
  deriving DecidableEq

/-- The callback of a subscription. -/
def Connection.onEvent (event : OrderStatusEvent) (connection : Connection) : Connection :=
  if connection.closedAt = none ∧ event.orderId = connection.orderId then
    { connection with received := connection.received ++ [event] }
  else connection

section Steps

variable (state : State)

def State.init : State where
  service := .init
  connections := fun _ => none
  emitted := []

def State.connect (id : ConnectionId) (connection : Connection) : State :=
  { state with connections := Function.update state.connections id (some connection) }

def emitStatusChanged (orderId : OrderId) (status : String) : State :=
  let (event, service) := state.service.emitStatusChanged orderId status
  { service := service
    connections := fun id => (state.connections id).map (Connection.onEvent event)
    emitted := state.emitted ++ [event] }

def streamEvents (id : ConnectionId) (orderId : OrderId) (lastEventId : Int) : Option State :=
  match state.connections id with
  | none =>
      let replay := (state.service.getEventsAfter lastEventId).filter fun event =>
        event.orderId = orderId
      some (state.connect id
        ⟨orderId, .streamEvents lastEventId, replay, state.emitted.length, none⟩)
  | some _ => none

def join (id : ConnectionId) (orderId : OrderId) : Option State :=
  match state.connections id with
  | none => some (state.connect id ⟨orderId, .join, [], state.emitted.length, none⟩)
  | some _ => none

def close (id : ConnectionId) : Option State :=
  match state.connections id with
  | some connection =>
      if connection.closedAt = none then
        some (state.connect id { connection with closedAt := some state.emitted.length })
      else none
  | none => none

end Steps

def step (state : State) : Action → Option State
  | .emitStatusChanged orderId status => some (emitStatusChanged state orderId status)
  | .streamEvents id orderId lastEventId => streamEvents state id orderId lastEventId
  | .join id orderId => join state id orderId
  | .close id => close state id

/-! ### What a connection has seen -/

/-- The place in the log of the first event that a connection can see. -/
def Source.start (openedAt : Nat) : Source → Nat
  | .streamEvents lastEventId => min openedAt (max (openedAt - historyLimit) lastEventId.toNat)
  | .join => openedAt

def Connection.wanted (connection : Connection) (event : OrderStatusEvent) : Bool :=
  event.orderId = connection.orderId

/-- The events that were emitted before the connection closed. -/
def Connection.before (connection : Connection) (emitted : List OrderStatusEvent) :
    List OrderStatusEvent :=
  match connection.closedAt with
  | some closedAt => emitted.take closedAt
  | none => emitted

theorem Connection.before_of_open {connection : Connection} (hopen : connection.closedAt = none)
    (emitted : List OrderStatusEvent) : connection.before emitted = emitted := by
  rw [Connection.before, hopen]

theorem Connection.before_of_closed {connection : Connection} {closedAt : Nat}
    (hclosed : connection.closedAt = some closedAt) (emitted : List OrderStatusEvent) :
    connection.before emitted = emitted.take closedAt := by
  rw [Connection.before, hclosed]

structure Connection.Follows (connection : Connection) (emitted : List OrderStatusEvent) :
    Prop where
  opened : connection.openedAt ≤ (connection.before emitted).length
  closed : ∀ closedAt, connection.closedAt = some closedAt → closedAt ≤ emitted.length
  received : connection.received = follow connection.wanted
    (connection.source.start connection.openedAt) (connection.before emitted)

structure Inv (state : State) : Prop where
  numbered : Numbered OrderStatusEvent.id state.emitted
  next : state.service.nextEventId = state.emitted.length + 1
  history : state.service.history = lastOf historyLimit state.emitted
  follows : ∀ id connection, state.connections id = some connection →
    connection.Follows state.emitted

theorem inv_init : Inv State.init where
  numbered := numbered_nil
  next := rfl
  history := rfl
  follows _ _ hconnection := by cases hconnection

theorem Source.start_le (source : Source) (openedAt : Nat) : source.start openedAt ≤ openedAt := by
  cases source with
  | streamEvents lastEventId => exact Nat.min_le_left _ _
  | join => exact Nat.le_refl _

/-- One more event: an open connection gets it if it is of its order, a closed one is left alone. -/
theorem Connection.Follows.onEvent {connection : Connection} {emitted : List OrderStatusEvent}
    {event : OrderStatusEvent} (hfollows : connection.Follows emitted) :
    (connection.onEvent event).Follows (emitted ++ [event]) := by
  obtain ⟨orderId, source, received, openedAt, closedAt⟩ := connection
  obtain ⟨hopened, hclosed, hreceived⟩ := hfollows
  cases closedAt with
  | some closedAt =>
      have hle := hclosed closedAt rfl
      have htake : (emitted ++ [event]).take closedAt = emitted.take closedAt :=
        List.take_append_of_le_length hle
      have hsame : Connection.onEvent event ⟨orderId, source, received, openedAt, some closedAt⟩ =
          ⟨orderId, source, received, openedAt, some closedAt⟩ := if_neg nofun
      rw [hsame]
      refine ⟨?_, ?_, ?_⟩
      · rw [Connection.before_of_closed rfl, htake]
        exact hopened
      · intro other hother
        have hother := hclosed other hother
        rw [List.length_append]
        omega
      · rw [Connection.before_of_closed rfl, htake]
        exact hreceived
  | none =>
      have hstart : source.start openedAt ≤ emitted.length :=
        (source.start_le openedAt).trans hopened
      have hpush :=
        follow_push (Connection.wanted ⟨orderId, source, received, openedAt, none⟩) event
        hstart
      have hlength : openedAt ≤ (emitted ++ [event]).length := by
        rw [List.length_append]
        exact Nat.le_add_right_of_le hopened
      by_cases horder : event.orderId = orderId
      · have hgot : Connection.onEvent event ⟨orderId, source, received, openedAt, none⟩ =
            ⟨orderId, source, received ++ [event], openedAt, none⟩ := if_pos ⟨rfl, horder⟩
        rw [hgot]
        refine ⟨hlength, nofun, ?_⟩
        rw [if_pos (by simpa [Connection.wanted] using horder)] at hpush
        exact (congrArg (· ++ [event]) hreceived).trans hpush.symm
      · have hnot : Connection.onEvent event ⟨orderId, source, received, openedAt, none⟩ =
            ⟨orderId, source, received, openedAt, none⟩ := if_neg fun hboth => horder hboth.2
        rw [hnot]
        refine ⟨hlength, nofun, ?_⟩
        rw [if_neg (by simpa [Connection.wanted] using horder), List.append_nil] at hpush
        exact hreceived.trans hpush.symm

theorem Inv.connect {state : State} (hinv : Inv state) {id : ConnectionId} {connection : Connection}
    (hfollows : connection.Follows state.emitted) : Inv (state.connect id connection) where
  numbered := hinv.numbered
  next := hinv.next
  history := hinv.history
  follows other found hfound := by
    have hfound : Function.update state.connections id (some connection) other =
        some found := hfound
    by_cases heq : other = id
    · rw [heq, Function.update_self] at hfound
      cases hfound
      exact hfollows
    · rw [Function.update_of_ne heq] at hfound
      exact hinv.follows other found hfound

theorem Inv.step {before after : State} {action : Action} (hinv : Inv before)
    (hstep : step before action = some after) : Inv after := by
  cases action with
  | emitStatusChanged orderId status =>
      cases hstep
      refine ⟨hinv.numbered.push hinv.next, ?_, ?_, ?_⟩
      · have hnext := hinv.next
        simp only [emitStatusChanged, OrderEventsService.emitStatusChanged, List.length_append,
          List.length_singleton]
        omega
      · simp only [emitStatusChanged, OrderEventsService.emitStatusChanged, hinv.history]
        exact lastOf_push (by decide) before.emitted _
      · intro id connection hconnection
        obtain ⟨old, hold, rfl⟩ := Option.map_eq_some_iff.mp hconnection
        exact (hinv.follows id old hold).onEvent
  | streamEvents id orderId lastEventId =>
      simp only [OrderEvents.step, streamEvents] at hstep
      split at hstep <;> cases hstep
      refine hinv.connect ⟨Nat.le_refl _, nofun, ?_⟩
      -- the replay is what is left of the log after the place where it starts
      have hreplay : before.service.getEventsAfter lastEventId =
          before.emitted.drop (Source.start before.emitted.length (.streamEvents lastEventId)) := by
        rw [OrderEventsService.getEventsAfter, hinv.history,
          hinv.numbered.filter_lastOf, Source.start]
        by_cases hle : max (before.emitted.length - historyLimit) lastEventId.toNat ≤
            before.emitted.length
        · rw [Nat.min_eq_right hle]
        · rw [Nat.min_eq_left (by omega), List.drop_of_length_le (by omega),
            List.drop_of_length_le (Nat.le_refl _)]
      exact congrArg (List.filter _) hreplay
  | join id orderId =>
      simp only [OrderEvents.step, join] at hstep
      split at hstep <;> cases hstep
      refine hinv.connect ⟨Nat.le_refl _, nofun, ?_⟩
      change [] = List.filter _ (before.emitted.drop before.emitted.length)
      rw [List.drop_length, List.filter_nil]
  | close id =>
      simp only [OrderEvents.step, close] at hstep
      split at hstep
      case h_2 => cases hstep
      rename_i connection hconnection
      split at hstep <;> cases hstep
      rename_i hopen
      obtain ⟨hopened, -, hreceived⟩ := hinv.follows id connection hconnection
      rw [Connection.before_of_open hopen] at hopened hreceived
      refine hinv.connect ⟨?_, ?_, ?_⟩
      · rw [Connection.before_of_closed rfl, List.take_length]
        exact hopened
      · intro closedAt hclosed
        cases hclosed
        exact Nat.le_refl _
      · rw [Connection.before_of_closed rfl, List.take_length]
        exact hreceived

theorem inv_reach {state : State} (hreach : Reachable step State.init state) : Inv state :=
  Reach.invariant Inv inv_init (fun _ _ _ _ hinv _ hstep => hinv.step hstep) hreach

end Marketplace.OrderEvents
