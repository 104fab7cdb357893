import Mathlib.Data.Option.Basic
import Marketplace.Lib.Transition
import Marketplace.Outbox.Outbox

/-!
# `EventPublisher`

Publishing on a confirm channel. A call sends one message, so its message has the name of the call.
The frames of the broker are steps, and so is the continuation after `waitForConfirms`: any number
of frames may be handled between the last confirm and it.
-/

namespace Marketplace.EventPublisher

open Transition

abbrev ChannelId := Nat

/-- `basic.ack` or `basic.nack`. -/
inductive Confirm where
  | ack
  | nack
  deriving DecidableEq

inductive ChannelStatus where
  | opening
  | opened
  | closed
  deriving DecidableEq

structure PublishOptions where
  persistent : Bool
  mandatory : Bool
  messageId : Text
  type : String
  contentType : String
  deriving DecidableEq

structure Message where
  exchange : String
  routingKey : String
  content : OrderPlacedEvent
  options : PublishOptions
  deriving DecidableEq

structure UnroutableMessageError where
  eventId : Text
  routingKey : String
  deriving DecidableEq

def UnroutableMessageError.message (error : UnroutableMessageError) : String :=
  "Подію " ++ String.ofList error.eventId ++ " не маршрутизовано: для routing key \"" ++
    error.routingKey ++ "\" немає черги"

def exchangeEvents : String := "shop.events"

/-- What `publish` hands to the channel. -/
def messageOf (event : OrderPlacedEvent) (routingKey : String) : Message where
  exchange := exchangeEvents
  routingKey := routingKey
  content := event
  options :=
    { persistent := true
      mandatory := true
      messageId := event.eventId
      type := event.type
      contentType := "application/json" }

/-- A message that was sent, and the frames about it so far. -/
structure Sent where
  message : Message
  channel : ChannelId
  returned : Bool
  confirm : Option Confirm
  deriving DecidableEq

def Sent.messageId (sent : Sent) : Text := sent.message.options.messageId

inductive Phase where
  | idle
  /-- `getChannel` is awaited. -/
  | connecting (event : OrderPlacedEvent) (routingKey : String) (channel : ChannelId)
  /-- `waitForConfirms` is awaited: `awaited` are the messages that were outstanding when it was
  called. -/
  | waiting (event : OrderPlacedEvent) (routingKey : String) (channel : ChannelId)
      (awaited : List Call)
  | resolved
  | unroutable (error : UnroutableMessageError)
  | threw
  deriving DecidableEq

def Phase.isSettled : Phase → Bool
  | .resolved | .unroutable _ | .threw => true
  | .idle | .connecting _ _ _ | .waiting _ _ _ _ => false

def Phase.isUnroutable : Phase → Bool
  | .unroutable _ => true
  | _ => false

/-- `returned` is the set of the publisher; `sent` lists the calls that have a message. -/
structure State where
  channelPromise : Option ChannelId
  channels : ChannelId → Option ChannelStatus
  nextChannel : ChannelId
  returned : List Text
  calls : Call → Phase
  sent : List Call
  messages : Call → Option Sent

inductive Action where
  | publish (call : Call) (event : OrderPlacedEvent) (routingKey : String)
  | openChannel (channel : ChannelId)
  | failChannel (channel : ChannelId)
  /-- The call goes on with its channel. -/
  | send (call : Call)
  | basicReturn (call : Call)
  | basicAck (call : Call)
  | basicNack (call : Call)
  | closeChannel (channel : ChannelId)
  /-- `close`, or the `close` event of a connection whose channel is closed already. -/
  | reset
  /-- `waitForConfirms` has resolved, and the call goes on. -/
  | resume (call : Call)
  /-- `waitForConfirms` has rejected, and so does the call. -/
  | reject (call : Call)

def State.init : State where
  channelPromise := none
  channels := fun _ => none
  nextChannel := 0
  returned := []
  calls := fun _ => .idle
  sent := []
  messages := fun _ => none

section Steps

variable (state : State) (call : Call) (channel : ChannelId)

def State.goto (phase : Phase) : State :=
  { state with calls := Function.update state.calls call phase }

def State.setChannel (status : ChannelStatus) : State :=
  { state with channels := Function.update state.channels channel (some status) }

@[simp]
theorem State.calls_goto_self (phase : Phase) : (state.goto call phase).calls call = phase := by
  simp [State.goto]

theorem State.calls_goto_of_ne {other : Call} (phase : Phase) (hne : other ≠ call) :
    (state.goto call phase).calls other = state.calls other := by
  simp [State.goto, hne]

/-- `publish`, up to `await this.getChannel()`. -/
def publish (event : OrderPlacedEvent) (routingKey : String) : Option State :=
  match state.calls call with
  | .idle =>
      match state.channelPromise with
      | some channel => some (state.goto call (.connecting event routingKey channel))
      | none =>
          some { ((state.goto call (.connecting event routingKey state.nextChannel)).setChannel
              state.nextChannel .opening) with
            channelPromise := some state.nextChannel
            nextChannel := state.nextChannel + 1 }
  | _ => none

def openChannel : Option State :=
  if state.channels channel = some .opening then some (state.setChannel channel .opened) else none

/-- `openChannel` throws: no connection, or no exchange. -/
def failChannel : Option State :=
  if state.channels channel = some .opening then
    some { state.setChannel channel .closed with channelPromise := none }
  else none

/-- The `close` event of the channel or of its connection. -/
def closeChannel : Option State :=
  if state.channels channel = some .opened then
    some { state.setChannel channel .closed with channelPromise := none }
  else none

def reset : Option State := some { state with channelPromise := none }

def outstanding (other : Call) : Bool :=
  (state.messages other).any fun sent => sent.channel = channel && sent.confirm.isNone

/-- `ch.publish` and the call of `ch.waitForConfirms`. On a channel that is closed the call
throws. -/
def send : Option State :=
  match state.calls call with
  | .connecting event routingKey channel =>
      match state.channels channel with
      | some .opened =>
          some { (state.goto call (.waiting event routingKey channel
              (call :: state.sent.filter (outstanding state channel)))) with
            sent := call :: state.sent
            messages := Function.update state.messages call
              (some ⟨messageOf event routingKey, channel, false, none⟩) }
      | some .closed => some (state.goto call .threw)
      | _ => none
  | _ => none

/-- The message of a call while the broker may send frames about it. -/
def unconfirmed : Option Sent :=
  (state.messages call).filter fun sent =>
    sent.confirm.isNone && state.channels sent.channel = some .opened

def State.setMessage (sent : Sent) : State :=
  { state with messages := Function.update state.messages call (some sent) }

/-- The handler of `return`: an empty `messageId` is not recorded. -/
def basicReturn : Option State :=
  match unconfirmed state call with
  | some sent =>
      if sent.returned then none
      else
        some { (state.setMessage call { sent with returned := true }) with
          returned :=
            if sent.messageId = [] ∨ sent.messageId ∈ state.returned then state.returned
            else sent.messageId :: state.returned }
  | none => none

def confirm (verdict : Confirm) : Option State :=
  match unconfirmed state call with
  | some sent => some (state.setMessage call { sent with confirm := some verdict })
  | none => none

def confirmed (verdict : Confirm) (other : Call) : Bool :=
  (state.messages other).any fun sent => sent.confirm = some verdict

/-- `this.returned.delete(event.eventId)` decides. -/
def resume : Option State :=
  match state.calls call with
  | .waiting event routingKey _ awaited =>
      if awaited.all (confirmed state .ack) then
        if event.eventId ∈ state.returned then
          some { (state.goto call (.unroutable ⟨event.eventId, routingKey⟩)) with
            returned := state.returned.filter (· ≠ event.eventId) }
        else some (state.goto call .resolved)
      else none
  | _ => none

/-- One of the awaited messages is nacked, or will not be confirmed any more. -/
def reject : Option State :=
  match state.calls call with
  | .waiting _ _ channel awaited =>
      if awaited.any (confirmed state .nack) ∨
          state.channels channel = some .closed ∧ ¬ awaited.all (confirmed state .ack) then
        some (state.goto call .threw)
      else none
  | _ => none

end Steps

def step (state : State) : Action → Option State
  | .publish call event routingKey => publish state call event routingKey
  | .openChannel channel => openChannel state channel
  | .failChannel channel => failChannel state channel
  | .send call => send state call
  | .basicReturn call => basicReturn state call
  | .basicAck call => confirm state call .ack
  | .basicNack call => confirm state call .nack
  | .closeChannel channel => closeChannel state channel
  | .reset => reset state
  | .resume call => resume state call
  | .reject call => reject state call

/-! ### What the calls should report -/

/-- The broker accepted the message of the call and routed it. -/
def Accepted (state : State) (call : Call) : Prop :=
  ∃ sent, state.messages call = some sent ∧ sent.confirm = some .ack ∧ sent.returned = false

/-- The broker returned the message of the call. -/
def Returned (state : State) (call : Call) (error : UnroutableMessageError) : Prop :=
  ∃ sent, state.messages call = some sent ∧ sent.returned = true ∧
    error = ⟨sent.message.content.eventId, sent.message.routingKey⟩

/-- Every call that is over says what became of its own message. -/
def Truthful (state : State) : Prop :=
  ∀ call, (state.calls call).isSettled = true →
    (state.calls call = .resolved ↔ Accepted state call) ∧
    ∀ error, state.calls call = .unroutable error ↔ Returned state call error

/-- The condition: frames can be told apart. A returned message has an id; when a call goes on after
`waitForConfirms`, no other message of the same event is returned without its own call having been
told; and a call that rejects over another message (or a lost channel) has not heard of its own, and
the broker does not accept or return it afterwards. -/
def Attributable (state : State) : Action → Prop
  | .basicReturn call => state.calls call ≠ .threw ∧ ∀ mine ∈ state.messages call,
      mine.messageId ≠ []
  | .basicAck call => state.calls call ≠ .threw
  | .resume call => ∀ mine ∈ state.messages call, ∀ other ∈ state.sent, other ≠ call →
      ∀ theirs ∈ state.messages other, theirs.messageId = mine.messageId → theirs.returned = true →
        (state.calls other).isUnroutable = true
  | .reject call => ∀ mine ∈ state.messages call, mine.returned = false ∧ mine.confirm ≠ some .ack
  | _ => True

instance (state : State) (action : Action) : Decidable (Attributable state action) := by
  unfold Attributable
  split <;> infer_instance

end Marketplace.EventPublisher
