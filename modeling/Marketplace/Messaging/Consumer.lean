import Marketplace.Lib.ReadCommitted
import Marketplace.Lib.Transition
import Marketplace.Outbox.Outbox

/-!
# The consumer of `order.placed`

The queue with its dead letters, and `handleMessage` with the transaction of
`applyOrderPlacedEffect`. A delivery has a number of its own, so its handler has the name of the
delivery. The broker may return a message while its handler is still running.
-/

namespace Marketplace.OrderPlacedConsumer

open ReadCommitted Transition

abbrev Delivery := Nat

def consumerOrderPlaced : String := "orders.order-placed"

def deliveryLimit : Nat := 3

/-- A message of the queue. Its content is JSON, of which `parseOrderPlaced` checks the types. -/
structure Message where
  content : OrderPlacedEvent
  /-- `x-delivery-count`. -/
  deliveryCount : Nat
  deriving DecidableEq

/-- A row of `processed_order_events`; `eventId` is the key. -/
structure ProcessedOrderEvent where
  orderId : OrderId
  deriving DecidableEq

inductive SettledOutcome where
  | acked
  | skipped
  | dead
  | requeued
  | failed
  deriving DecidableEq

inductive Phase where
  | idle
  | received (message : Message)
  /-- BEGIN is done, the INSERT of the mark is next. -/
  | marking (event : OrderPlacedEvent)
  | applying (event : OrderPlacedEvent)
  | committing (event : OrderPlacedEvent) (applied : Bool)
  /-- `afterEffect` is called. -/
  | afterEffect (event : OrderPlacedEvent) (applied : Bool)
  | afterApplied (event : OrderPlacedEvent) (applied : Bool)
  | acking (event : OrderPlacedEvent) (applied : Bool)
  /-- The `catch` block. -/
  | failing (event : OrderPlacedEvent)
  | settled (outcome : SettledOutcome)
  | crashed
  deriving DecidableEq

/-- The transaction of `applyOrderPlacedEffect` is open. -/
def Phase.isOpen : Phase → Bool
  | .marking _ | .applying _ | .committing _ _ => true
  | _ => false

def Phase.event : Phase → Option OrderPlacedEvent
  | .received message => some message.content
  | .marking event | .applying event | .committing event _ | .afterEffect event _
  | .afterApplied event _ | .acking event _ | .failing event => some event
  | .idle | .settled _ | .crashed => none

/-- `applied` lists the event of every transaction that has committed with the answer `true`. -/
structure State where
  queue : List Message
  unacked : Delivery → Option Message
  dlq : List Message
  processedMessages : Table Delivery (Text × String) Unit
  processedOrderEvents : Table Delivery Text ProcessedOrderEvent
  handlers : Delivery → Phase
  applied : List Text

inductive Action where
  /-- The broker takes a message with the routing key of the queue. -/
  | arrive (event : OrderPlacedEvent)
  | deliver (delivery : Delivery) (message : Message)
  /-- The broker moves a message to the DLQ. -/
  | deadLetter (message : Message)
  | parse (delivery : Delivery)
  | mark (delivery : Delivery)
  | applyEffect (delivery : Delivery)
  /-- The answer to a COMMIT may be lost, and the caller then sees an error. -/
  | commit (delivery : Delivery) (answered : Bool)
  | abort (delivery : Delivery)
  | afterEffect (delivery : Delivery) (requeue : Bool)
  | afterApplied (delivery : Delivery)
  | hookThrows (delivery : Delivery)
  | ack (delivery : Delivery)
  | rejectFailed (delivery : Delivery)
  /-- The channel of the delivery is gone: the broker returns the message to the queue. -/
  | closeChannel (delivery : Delivery)
  | crash (delivery : Delivery)

def State.init : State where
  queue := []
  unacked := fun _ => none
  dlq := []
  processedMessages := Table.empty
  processedOrderEvents := Table.empty
  handlers := fun _ => .idle
  applied := []

def parseOrderPlaced (message : Message) : Option OrderPlacedEvent :=
  if message.content.type = routingKeyOrderPlaced then some message.content else none

section Steps

variable (state : State) (delivery : Delivery)

def State.goto (phase : Phase) : State :=
  { state with handlers := Function.update state.handlers delivery phase }

/-- The message is no longer with the consumer. -/
def State.take : State := { state with unacked := Function.update state.unacked delivery none }

/-- A returned message counts one more delivery. -/
def Message.again (message : Message) : Message :=
  { message with deliveryCount := message.deliveryCount + 1 }

/-- What the broker does with a message that comes back: nothing, if the channel is gone and it has
the message already. -/
def State.reject (requeue : Bool) : State :=
  match state.unacked delivery with
  | some message =>
      if requeue then { state.take delivery with queue := state.queue ++ [message.again] }
      else { state.take delivery with dlq := state.dlq ++ [message] }
  | none => state

def arrive (event : OrderPlacedEvent) : Option State :=
  some { state with queue := state.queue ++ [⟨event, 0⟩] }

/-- A message over the limit is not delivered any more. -/
def deliver (message : Message) : Option State :=
  if state.handlers delivery = .idle ∧ message ∈ state.queue ∧
      message.deliveryCount ≤ deliveryLimit then
    some { (state.goto delivery (.received message)) with
      queue := state.queue.erase message
      unacked := Function.update state.unacked delivery (some message) }
  else none

def deadLetter (message : Message) : Option State :=
  if message ∈ state.queue then
    some { state with
      queue := state.queue.erase message
      dlq := state.dlq ++ [message] }
  else none

/-- A message that is not an `order.placed` is rejected for good. -/
def parse : Option State :=
  match state.handlers delivery with
  | .received message =>
      match parseOrderPlaced message with
      | some event => some (state.goto delivery (.marking event))
      | none => some ((state.reject delivery false).goto delivery (.settled .dead))
  | _ => none

/-- `INSERT INTO processed_messages … ON CONFLICT DO NOTHING RETURNING message_id`. -/
def mark : Option State :=
  match state.handlers delivery with
  | .marking event =>
      let key := (event.eventId, consumerOrderPlaced)
      match state.processedMessages.insertOutcome delivery key with
      | .inserted =>
          some { (state.goto delivery (.applying event)) with
            processedMessages := state.processedMessages.put delivery key (some ()) }
      | .conflict => some (state.goto delivery (.committing event false))
      | .wait => none
  | _ => none

/-- `INSERT INTO processed_order_events … ON CONFLICT DO NOTHING`. -/
def applyEffect : Option State :=
  match state.handlers delivery with
  | .applying event =>
      match state.processedOrderEvents.insertOutcome delivery event.eventId with
      | .inserted =>
          some { (state.goto delivery (.committing event true)) with
            processedOrderEvents :=
              state.processedOrderEvents.put delivery event.eventId (some ⟨event.data.orderId⟩) }
      | .conflict => some (state.goto delivery (.committing event true))
      | .wait => none
  | _ => none

def commit (answered : Bool) : Option State :=
  match state.handlers delivery with
  | .committing event applied =>
      some { (state.goto delivery
        (if answered then .afterEffect event applied else .failing event)) with
        processedMessages := state.processedMessages.commit delivery
        processedOrderEvents := state.processedOrderEvents.commit delivery
        applied := if applied then event.eventId :: state.applied else state.applied }
  | _ => none

def State.rollback (phase : Phase) : State :=
  { (state.goto delivery phase) with
    processedMessages := state.processedMessages.rollback delivery
    processedOrderEvents := state.processedOrderEvents.rollback delivery }

/-- A statement throws, the transaction is rolled back and the `catch` block runs. -/
def abort : Option State :=
  match state.handlers delivery with
  | .marking event | .applying event | .committing event _ =>
      some (state.rollback delivery (.failing event))
  | _ => none

def afterEffect (requeue : Bool) : Option State :=
  match state.handlers delivery with
  | .afterEffect event applied =>
      if requeue then some ((state.reject delivery true).goto delivery (.settled .requeued))
      else some (state.goto delivery (.afterApplied event applied))
  | _ => none

def afterApplied : Option State :=
  match state.handlers delivery with
  | .afterApplied event applied => some (state.goto delivery (.acking event applied))
  | _ => none

def hookThrows : Option State :=
  match state.handlers delivery with
  | .afterEffect event _ | .afterApplied event _ => some (state.goto delivery (.failing event))
  | _ => none

/-- `ch.ack(msg)`, which throws if the channel is gone. -/
def ack : Option State :=
  match state.handlers delivery with
  | .acking event applied =>
      match state.unacked delivery with
      | some _ =>
          some ((state.take delivery).goto delivery
            (.settled (if applied then .acked else .skipped)))
      | none => some (state.goto delivery (.failing event))
  | _ => none

def rejectFailed : Option State :=
  match state.handlers delivery with
  | .failing _ => some ((state.reject delivery true).goto delivery (.settled .failed))
  | _ => none

def closeChannel : Option State :=
  if (state.unacked delivery).isSome then some (state.reject delivery true) else none

/-- The process dies; the broker notices with `closeChannel`. -/
def crash : Option State :=
  if state.handlers delivery = .idle then none else some (state.rollback delivery .crashed)

end Steps

def step (state : State) : Action → Option State
  | .arrive event => arrive state event
  | .deliver delivery message => deliver state delivery message
  | .deadLetter message => deadLetter state message
  | .parse delivery => parse state delivery
  | .mark delivery => mark state delivery
  | .applyEffect delivery => applyEffect state delivery
  | .commit delivery answered => commit state delivery answered
  | .abort delivery => abort state delivery
  | .afterEffect delivery requeue => afterEffect state delivery requeue
  | .afterApplied delivery => afterApplied state delivery
  | .hookThrows delivery => hookThrows state delivery
  | .ack delivery => ack state delivery
  | .rejectFailed delivery => rejectFailed state delivery
  | .closeChannel delivery => closeChannel state delivery
  | .crash delivery => crash state delivery

/-! ### Where an event is -/

/-- The broker has a message with the event: queued, delivered and not acked, or dead. -/
def State.Has (state : State) (event : OrderPlacedEvent) : Prop :=
  (∃ message ∈ state.queue, message.content = event) ∨
    (∃ delivery message, state.unacked delivery = some message ∧ message.content = event) ∨
      ∃ message ∈ state.dlq, message.content = event

def State.InBroker (state : State) (eventId : Text) : Prop :=
  ∃ event, state.Has event ∧ event.eventId = eventId

/-- The effect of the event is there for everyone to see. -/
def State.Processed (state : State) (eventId : Text) : Prop :=
  ∃ row, state.processedOrderEvents.committed eventId = some row

def State.Delivered (state : State) (eventId : Text) : Prop :=
  state.InBroker eventId ∨ state.Processed eventId

end Marketplace.OrderPlacedConsumer
