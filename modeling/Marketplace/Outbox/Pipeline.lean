import Marketplace.Messaging.Consumer
import Marketplace.Orders.Placing
import Marketplace.Outbox.Relay

/-!
# From the order to its effect

The transactions that place orders, the passes of the relays, the cleanup of `outbox`, the broker
and the consumers, in one state. The rows that `Placing` lists for `outbox` are here the rows of the
table that the relays read. A publish goes on when its pass has given it up or has died.
-/

namespace Marketplace.Pipeline

open Checkout (JsNumber)
open ReadCommitted Transition
open Relay (Envelope OutboxId)

def outboxRetentionDays : Nat := 7

/-- `make_interval(days => 7)`, in milliseconds. -/
def outboxRetention : Nat := outboxRetentionDays * 24 * 60 * 60 * 1000

inductive Cleanup where
  | idle
  /-- The DELETE has its snapshot, `rest` still to be visited. -/
  | deleting (now : Nat) (rest : List OutboxId)
  | finished
  deriving DecidableEq

/-- `flights` are the publishes that the broker has neither taken nor lost, `accepted` the ones it
has confirmed. What the queue of `order.placed` is not bound to goes to the alternate exchange, and
is confirmed as well. -/
structure State where
  placing : Placing.State
  relay : Relay.State
  cleanups : Call → Cleanup
  flights : List (Call × Envelope)
  accepted : List (Call × OutboxId)
  unrouted : List Envelope
  consumer : OrderPlacedConsumer.State

inductive Action where
  /-- A statement of a transaction that places an order, other than the INSERT into `outbox`. -/
  | place (action : Placing.Action)
  | enqueueOrderPlaced (call : Call) (id : OutboxId) (occurredAt now : Nat)
  | relay (action : Relay.Action)
  | accept (call : Call) (row : Envelope)
  | lose (call : Call) (row : Envelope)
  | cleanupOutbox (call : Call) (now : Nat)
  | deleteRow (call : Call)
  | endCleanup (call : Call)
  | abortCleanup (call : Call)
  | consume (action : OrderPlacedConsumer.Action)

def State.init : State where
  placing := .init
  relay := .init Table.empty
  cleanups := fun _ => .idle
  flights := []
  accepted := []
  unrouted := []
  consumer := .init

/-- The row that a pass is waiting for. -/
def awaited : Relay.Phase → Option Envelope
  | .awaiting _ row _ => some row
  | _ => none

/-- The row of `outbox` whose INSERT is next. -/
def pending (occurredAt now : Nat) : Placing.Phase → Option OutboxRow
  | .enqueuing _ source id =>
      some (Marketplace.enqueueOrderPlaced (source.eventData id) occurredAt now)
  | _ => none

/-- The WHERE of the DELETE. -/
def expired (now : Nat) (row : OutboxRow) : Bool :=
  row.publishedAt.any fun publishedAt => publishedAt + outboxRetention < now

section Steps

variable (number : Text → JsNumber) (state : State) (call : Call)

/-! A connection is used by one of the three. -/

def State.FreeForPlacing : Prop := state.relay.passes call = .idle ∧ state.cleanups call = .idle

def State.FreeForRelay : Prop := state.placing.calls call = .idle ∧ state.cleanups call = .idle

def State.FreeForCleanup : Prop :=
  state.placing.calls call = .idle ∧ state.relay.passes call = .idle

instance : Decidable (state.FreeForPlacing call) := by
  unfold State.FreeForPlacing
  infer_instance

instance : Decidable (state.FreeForRelay call) := by
  unfold State.FreeForRelay
  infer_instance

instance : Decidable (state.FreeForCleanup call) := by
  unfold State.FreeForCleanup
  infer_instance

def State.setOutbox (outbox : Table Call OutboxId OutboxRow) : State :=
  { state with relay := { state.relay with outbox := outbox } }

/-- The end of a transaction, for the row it has inserted. -/
def endOutbox (phase : Placing.Phase) (outbox : Table Call OutboxId OutboxRow) :
    Table Call OutboxId OutboxRow :=
  match phase with
  | .placed _ _ => outbox.commit call
  | .threw => outbox.rollback call
  | _ => outbox

def place (action : Placing.Action) : Option State :=
  match action with
  | .enqueue _ _ _ => none
  | _ =>
      if state.FreeForPlacing action.caller then
        (Placing.step number state.placing action).map fun placing =>
          { state.setOutbox
              (endOutbox action.caller (placing.calls action.caller) state.relay.outbox) with
            placing := placing }
      else none

/-- The id is a new uuid. -/
def enqueueOrderPlaced (id : OutboxId) (occurredAt now : Nat) : Option State :=
  if state.FreeForPlacing call ∧ id ∉ state.relay.outbox.keys then
    match pending occurredAt now (state.placing.calls call),
        Placing.step number state.placing (.enqueue call occurredAt now) with
    | some row, some placing =>
        some { state.setOutbox (state.relay.outbox.put call id (some row)) with placing := placing }
    | _, _ => none
  else none

/-- A pass is told that its row was confirmed only if it was. -/
def Permitted : Relay.Action → Prop
  | .settle call .confirmed =>
      (awaited (state.relay.passes call)).any (fun row => (call, row.id) ∈ state.accepted) = true
  | .enqueue _ _ _ _ _ => False
  | _ => True

instance (action : Relay.Action) : Decidable (Permitted state action) := by
  unfold Permitted
  split <;> infer_instance

/-- The message that the step sends. -/
def newFlight (passes : Call → Relay.Phase) : Relay.Action → List (Call × Envelope)
  | .publish call => (awaited (passes call)).toList.map fun row => (call, row)
  | _ => []

def relay (action : Relay.Action) : Option State :=
  if state.FreeForRelay action.caller ∧ Permitted state action then
    (Relay.step state.relay action).map fun relay =>
      { state with
        relay := relay
        flights := state.flights ++ newFlight relay.passes action }
  else none

/-- The broker takes a message and confirms it. -/
def accept (row : Envelope) : Option State :=
  if (call, row) ∈ state.flights then
    let taken :=
      { state with
        flights := state.flights.erase (call, row)
        accepted := (call, row.id) :: state.accepted }
    if row.type = routingKeyOrderPlaced then
      (OrderPlacedConsumer.step state.consumer (.arrive row.payload)).map fun consumer =>
        { taken with consumer := consumer }
    else some { taken with unrouted := row :: state.unrouted }
  else none

def lose (row : Envelope) : Option State :=
  if (call, row) ∈ state.flights then
    some { state with flights := state.flights.erase (call, row) }
  else none

def cleanupOutbox (now : Nat) : Option State :=
  if state.FreeForCleanup call ∧ state.cleanups call = .idle then
    some { state with
      cleanups := Function.update state.cleanups call
        (.deleting now (state.relay.outbox.scan call fun _ row => expired now row)) }
  else none

/-- Lock the next row of the DELETE and look at the version that is current then. -/
def deleteRow : Option State :=
  match state.cleanups call with
  | .deleting now (id :: rest) =>
      if state.relay.outbox.lockable call id then
        let next := { state with
          cleanups := Function.update state.cleanups call (.deleting now rest) }
        match state.relay.outbox.view call id with
        | some row =>
            let version := if expired now row then none else some row
            some (next.setOutbox (state.relay.outbox.put call id version))
        | none => some next
      else none
  | _ => none

def endCleanup : Option State :=
  match state.cleanups call with
  | .deleting _ [] =>
      some { state.setOutbox (state.relay.outbox.commit call) with
        cleanups := Function.update state.cleanups call .finished }
  | _ => none

def abortCleanup : Option State :=
  match state.cleanups call with
  | .deleting _ _ =>
      some { state.setOutbox (state.relay.outbox.rollback call) with
        cleanups := Function.update state.cleanups call .finished }
  | _ => none

/-- Only a publish brings messages. -/
def consume (action : OrderPlacedConsumer.Action) : Option State :=
  match action with
  | .arrive _ => none
  | _ =>
      (OrderPlacedConsumer.step state.consumer action).map fun consumer =>
        { state with consumer := consumer }

end Steps

def step (number : Text → JsNumber) (state : State) : Action → Option State
  | .place action => place number state action
  | .enqueueOrderPlaced call id occurredAt now =>
      enqueueOrderPlaced number state call id occurredAt now
  | .relay action => relay state action
  | .accept call row => accept state call row
  | .lose call row => lose state call row
  | .cleanupOutbox call now => cleanupOutbox state call now
  | .deleteRow call => deleteRow state call
  | .endCleanup call => endCleanup state call
  | .abortCleanup call => abortCleanup state call
  | .consume action => consume state action

end Marketplace.Pipeline
