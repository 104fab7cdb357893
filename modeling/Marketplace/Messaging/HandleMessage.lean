import Marketplace.Lib.Json
import Marketplace.Lib.Traced
import Marketplace.Lib.Utf8
import Marketplace.Numbers
import Marketplace.Outbox.Outbox

/-!
# One run of `handleMessage`

The function with its callbacks, on a channel whose `ack` and `reject` do not throw. A callback is
the function from what it is given to what it returns or throws; each is called at most once with
one argument.
-/

namespace Marketplace.HandleMessage

open Base64 (Byte)
open Checkout (JsNumber)

/-- A value that was thrown. `message` is what a template string makes of `(err as Error).message`;
there is nothing to read on `null` and `undefined`. -/
structure Thrown where
  message : Option Text
  deriving DecidableEq

structure ConsumeMessage where
  content : List Byte
  redelivered : Bool
  /-- `Number(headers?.['x-delivery-count'] ?? 0) + 1`; a header table may have no primitive
  value. -/
  deliveryCount : Except Thrown JsNumber

/-- What the consumer reads of an event, with the whole of it for `afterApplied`. -/
structure OrderPlaced where
  eventId : Text
  orderId : Int
  body : Json

structure DeliveryInfo where
  eventId : Option Text
  redelivered : Bool
  deliveryCount : JsNumber

inductive SettledOutcome where
  | acked
  | skipped
  | dead
  | requeued
  | failed
  deriving DecidableEq

structure Settled where
  eventId : Option Text
  outcome : SettledOutcome

/-- An option that is not given returns `undefined`. `afterEffect` tells whether the answer is
`'requeue'`. -/
structure ConsumerOptions where
  onDelivery : DeliveryInfo → Except Thrown Unit
  afterEffect : DeliveryInfo → Bool → Except Thrown Bool
  afterApplied : OrderPlaced → Except Thrown Unit
  onSettled : Settled → Except Thrown Unit

/-- The statements of the transaction; `mark` tells whether RETURNING gave a row. -/
structure EffectStore where
  begin : Except Thrown Unit
  mark : Text → String → Except Thrown Bool
  process : Text → Int → Except Thrown Unit
  commit : Except Thrown Unit

/-- What a run does to the database, to the option `afterApplied` and to the channel. -/
inductive Event where
  | committed
  | applied
  | ack
  | reject (requeue : Bool)
  deriving DecidableEq

abbrev Run := Traced Event Thrown

open Traced (tell silent)

def consumerOrderPlaced : String := "orders.order-placed"

def eventIdKey : Text := ['e', 'v', 'e', 'n', 't', 'I', 'd']

def typeKey : Text := ['t', 'y', 'p', 'e']

def dataKey : Text := ['d', 'a', 't', 'a']

def orderIdKey : Text := ['o', 'r', 'd', 'e', 'r', 'I', 'd']

/-- The number of a member, if `Number.isInteger` holds of it. -/
def asInteger (number : Text → JsNumber) : Json → Option Int
  | .number literal =>
      match number literal.val with
      | .integer value => some value
      | .other _ => none
  | _ => none

def parseOrderPlaced (number : Text → JsNumber) (message : ConsumeMessage) :
    Option OrderPlaced := do
  let body ← Json.parse (Utf8.decode message.content)
  let eventId ← (body.get eventIdKey).bind Json.asString
  if (body.get typeKey).bind Json.asString = some routingKeyOrderPlaced.toList then
    let orderId ← ((body.get dataKey).bind (Json.get orderIdKey)).bind (asInteger number)
    some ⟨eventId, orderId, body⟩
  else none

/-- BEGIN, the function, COMMIT; the error of a ROLLBACK is dropped. -/
def EffectStore.transaction {Value : Type} (store : EffectStore) (body : Except Thrown Value) :
    Run Value := do
  silent store.begin
  let result ← silent body
  silent store.commit
  tell .committed
  return result

def applyOrderPlacedEffect (store : EffectStore) (event : OrderPlaced) : Run Bool :=
  store.transaction do
    if ← store.mark event.eventId consumerOrderPlaced then
      store.process event.eventId event.orderId
      return true
    else
      return false

def deliveryInfo (event : Option OrderPlaced) (message : ConsumeMessage)
    (deliveryCount : JsNumber) :
    DeliveryInfo where
  eventId := event.map OrderPlaced.eventId
  redelivered := message.redelivered
  deliveryCount := deliveryCount

def settle (options : ConsumerOptions) (info : DeliveryInfo) (outcome : SettledOutcome) :
    Run Unit :=
  silent (options.onSettled ⟨info.eventId, outcome⟩)

/-- The `try` block. -/
def handle (options : ConsumerOptions) (store : EffectStore) (info : DeliveryInfo) :
    Option OrderPlaced → Run Unit
  | none => do
      tell (.reject false)
      settle options info .dead
  | some event => do
      let applied ← applyOrderPlacedEffect store event
      if ← silent (options.afterEffect info applied) then
        tell (.reject true)
        settle options info .requeued
      else
        silent (options.afterApplied event)
        tell .applied
        tell .ack
        settle options info (if applied then .acked else .skipped)

/-- The `catch` block: the line of the log reads `err.message`, which throws on `null`. -/
def recover (options : ConsumerOptions) (info : DeliveryInfo) (thrown : Thrown) : Run Unit :=
  match thrown.message with
  | some _ => do
      tell (.reject true)
      settle options info .failed
  | none => silent (.error thrown)

def handleMessage (number : Text → JsNumber) (options : ConsumerOptions) (store : EffectStore)
    (message : ConsumeMessage) : Run Unit := do
  let event := parseOrderPlaced number message
  let deliveryCount ← silent message.deliveryCount
  let info := deliveryInfo event message deliveryCount
  silent (options.onDelivery info)
  (handle options store info event).attempt (recover options info)

/-! ### How often a delivery is settled -/

def Event.settles : Event → Bool
  | .ack | .reject _ => true
  | .committed | .applied => false

/-- One delivery, settled as it should be. -/
structure SettledOnce (readable : Bool) (trace : List Event) : Prop where
  once : trace.countP Event.settles = 1
  ack : ∀ before after, trace = before ++ .ack :: after → .committed ∈ before ∧ .applied ∈ before
  dropped : .reject false ∈ trace → readable = false

/-- The line of the log can be written. -/
def Thrown.Described (thrown : Thrown) : Prop := thrown.message.isSome

/-- A callback that comes after the settling call: the `catch` block does not get to its
`reject`. -/
def Harmless (result : Except Thrown Unit) : Prop :=
  ∀ thrown, result = .error thrown → ¬ thrown.Described

/-- What the callbacks before the settling call come to: the outcome that is reported next, or what
was thrown. -/
def reached (options : ConsumerOptions) (store : EffectStore) (info : DeliveryInfo) :
    Option OrderPlaced → Except Thrown SettledOutcome
  | none => .ok .dead
  | some event => do
      let applied ← (applyOrderPlacedEffect store event).result
      if ← options.afterEffect info applied then
        .ok .requeued
      else
        options.afterApplied event
        .ok (if applied then .acked else .skipped)

/-- Nothing is thrown before the `try` block, what is thrown in it before the message is settled can
be logged, and `onSettled` throws nothing that can be logged. -/
def NothingAmiss (number : Text → JsNumber) (options : ConsumerOptions) (store : EffectStore)
    (message : ConsumeMessage) : Prop :=
  ∃ deliveryCount, message.deliveryCount = .ok deliveryCount ∧
    let event := parseOrderPlaced number message
    let info := deliveryInfo event message deliveryCount
    options.onDelivery info = .ok () ∧
      match reached options store info event with
      | .ok outcome => Harmless (options.onSettled ⟨info.eventId, outcome⟩)
      | .error thrown => thrown.Described

section Run

variable {options : ConsumerOptions} {store : EffectStore} {info : DeliveryInfo}
  {readable : Bool}

/-- The trace of the transaction says whether it has committed. -/
theorem applyOrderPlacedEffect_trace (store : EffectStore) (event : OrderPlaced) :
    (applyOrderPlacedEffect store event).trace =
      match (applyOrderPlacedEffect store event).result with
      | .ok _ => [.committed]
      | .error _ => [] := by
  unfold applyOrderPlacedEffect EffectStore.transaction
  generalize (do
    if ← store.mark event.eventId consumerOrderPlaced then
      store.process event.eventId event.orderId
      return true
    else
      return false : Except Thrown Bool) = body
  cases hbegin : store.begin <;> cases hbody : body <;> cases hcommit : store.commit <;>
    simp [Traced.trace_bind, Traced.result_bind]

/-- The settling call of an outcome, with what has gone before it. -/
def callsOf : SettledOutcome → List Event
  | .dead => [.reject false]
  | .requeued | .failed => [.committed, .reject true]
  | .acked | .skipped => [.committed, .applied, .ack]

/-- The `try` block: how it settles, and what is thrown out of it. -/
theorem handle_spec (options : ConsumerOptions) (store : EffectStore) (info : DeliveryInfo)
    (event : Option OrderPlaced) :
    match reached options store info event with
    | .ok outcome =>
        (handle options store info event).trace = callsOf outcome ∧
          (handle options store info event).result = options.onSettled ⟨info.eventId, outcome⟩ ∧
            (outcome = .dead → event = none)
    | .error thrown =>
        (∀ entry ∈ (handle options store info event).trace, entry = .committed) ∧
          (handle options store info event).result = .error thrown := by
  cases event with
  | none =>
      simp [reached, handle, settle, callsOf, Traced.trace_bind, Traced.result_bind]
  | some event =>
      have htrace := applyOrderPlacedEffect_trace store event
      cases heffect : (applyOrderPlacedEffect store event).result with
      | error thrown =>
          simp [reached, handle, Traced.trace_bind, Traced.result_bind, htrace, heffect]
      | ok applied =>
          cases hafter : options.afterEffect info applied with
          | error thrown =>
              simp [reached, handle, Traced.trace_bind, Traced.result_bind, htrace, heffect, hafter]
          | ok requeue =>
              cases requeue with
              | true =>
                  simp [reached, handle, settle, callsOf, Traced.trace_bind, Traced.result_bind,
                    htrace, heffect, hafter]
              | false =>
                  cases happlied : options.afterApplied event with
                  | error thrown =>
                      simp [reached, handle, Traced.trace_bind, Traced.result_bind, htrace, heffect,
                        hafter, happlied]
                  | ok _ =>
                      cases applied <;>
                        simp [reached, handle, settle, callsOf, Traced.trace_bind,
                          Traced.result_bind, htrace, heffect, hafter, happlied]

theorem recover_trace (thrown : Thrown) :
    (recover options info thrown).trace = if thrown.message.isSome then [.reject true] else [] := by
  unfold recover
  cases hmessage : thrown.message <;> simp [settle, Traced.trace_bind]

theorem settledOnce_callsOf {outcome : SettledOutcome}
    (hdead : outcome = .dead → readable = false) : SettledOnce readable (callsOf outcome) where
  once := by cases outcome <;> decide
  ack := by
    intro before after heq
    have hacked : outcome = .acked ∨ outcome = .skipped := by
      have hmem : Event.ack ∈ callsOf outcome := by simp [heq]
      cases outcome <;> simp [callsOf] at hmem ⊢
    have hshape : [.committed, .applied, .ack] = before ++ .ack :: after := by
      rcases hacked with rfl | rfl <;> exact heq
    obtain ⟨hbefore, -⟩ : before = [.committed, .applied] ∧ after = [] := by
      simpa [List.cons_eq_append_iff, and_assoc] using hshape
    simp [hbefore]
  dropped := by
    intro hmem
    apply hdead
    cases outcome <;> simp [callsOf] at hmem ⊢

/-- After the settling call it is `onSettled` that decides. -/
theorem settledOnce_reached_iff {event : Option OrderPlaced} {outcome : SettledOutcome}
    (hreached : reached options store info event = .ok outcome) :
    SettledOnce event.isSome
      ((handle options store info event).attempt (recover options info)).trace ↔
      Harmless (options.onSettled ⟨info.eventId, outcome⟩) := by
  have hspec := handle_spec options store info event
  simp only [hreached] at hspec
  obtain ⟨htrace, hresult, hdead⟩ := hspec
  rw [Traced.trace_attempt, htrace, hresult]
  have honce : SettledOnce event.isSome (callsOf outcome) :=
    settledOnce_callsOf fun heq => by simp [hdead heq]
  cases hsettled : options.onSettled ⟨info.eventId, outcome⟩ with
  | ok _ => simp [Harmless, honce]
  | error thrown =>
      cases hmessage : thrown.message with
      | none => simp [Harmless, Thrown.Described, recover_trace, hmessage, honce]
      | some message =>
          have htwice : (callsOf outcome ++ [Event.reject true]).countP Event.settles = 2 := by
            rw [List.countP_append, honce.once]
            rfl
          have hnot : ¬ SettledOnce event.isSome (callsOf outcome ++ [.reject true]) := by
            intro hsettles
            rw [SettledOnce.once hsettles] at htwice
            cases htwice
          simp [Harmless, Thrown.Described, recover_trace, hmessage, hnot]

/-- Before it, it is the line of the log. -/
theorem settledOnce_thrown_iff {event : Option OrderPlaced} {thrown : Thrown}
    (hreached : reached options store info event = .error thrown) :
    SettledOnce readable ((handle options store info event).attempt (recover options info)).trace ↔
      thrown.Described := by
  have hspec := handle_spec options store info event
  simp only [hreached] at hspec
  obtain ⟨htrace, hresult⟩ := hspec
  have hcount : (handle options store info event).trace.countP Event.settles = 0 := by
    rw [List.countP_eq_zero]
    intro entry hentry
    simp [htrace entry hentry, Event.settles]
  rw [Traced.trace_attempt, hresult]
  cases hmessage : thrown.message with
  | none =>
      have hnot : ¬ SettledOnce readable (handle options store info event).trace := by
        intro hsettles
        rw [SettledOnce.once hsettles] at hcount
        cases hcount
      simp [Thrown.Described, recover_trace, hmessage, hnot]
  | some message =>
      simp only [Thrown.Described, recover_trace, hmessage, Option.isSome_some, if_true, iff_true]
      refine ⟨?_, ?_, ?_⟩
      · simp [List.countP_append, hcount, Event.settles]
      · intro before after heq
        have hmem : Event.ack ∈ (handle options store info event).trace ++ [.reject true] := by
          simp [heq]
        rcases List.mem_append.mp hmem with hmem | hmem
        · cases htrace _ hmem
        · simp at hmem
      · intro hmem
        rcases List.mem_append.mp hmem with hmem | hmem
        · cases htrace _ hmem
        · simp at hmem

end Run

section Deliveries

variable (number : Text → JsNumber) (options : ConsumerOptions) (store : EffectStore)
  (message : ConsumeMessage)

/-- A delivery is settled exactly once, and as it should be, if and only if no callback gets in the
way. -/
theorem handleMessage_settlesOnce_iff :
    SettledOnce (parseOrderPlaced number message).isSome
        (handleMessage number options store message).trace ↔
      NothingAmiss number options store message := by
  have hempty : ∀ readable, ¬ SettledOnce readable [] := fun _ hsettled => by
    cases hsettled.once
  unfold handleMessage NothingAmiss
  cases hcount : message.deliveryCount with
  | error thrown => simp [Traced.trace_bind, hempty]
  | ok deliveryCount =>
      cases hdelivery : options.onDelivery
          (deliveryInfo (parseOrderPlaced number message) message deliveryCount) with
      | error thrown => simp [Traced.trace_bind, hdelivery, hempty]
      | ok _ =>
          cases hreached : reached options store
              (deliveryInfo (parseOrderPlaced number message) message deliveryCount)
              (parseOrderPlaced number message) with
          | ok outcome =>
              simpa [Traced.trace_bind, hdelivery, hreached] using settledOnce_reached_iff hreached
          | error thrown =>
              simpa [Traced.trace_bind, hdelivery, hreached] using settledOnce_thrown_iff hreached

end Deliveries

/-- A message `order.placed` of order 1. -/
def placedMessage : ConsumeMessage where
  content := Utf8.encode (Json.stringify (.object
    [(eventIdKey, .string ['e']), (typeKey, .string routingKeyOrderPlaced.toList),
      (dataKey, .object [(orderIdKey, .number (JsonNumber.ofNat 1))])]))
  redelivered := false
  deliveryCount := .ok (.integer 1)

/-- The options that only report, and a report that throws. -/
def throwingReport : ConsumerOptions where
  onDelivery := fun _ => .ok ()
  afterEffect := fun _ _ => .ok false
  afterApplied := fun _ => .ok ()
  onSettled := fun _ => .error ⟨some []⟩

def answeringStore : EffectStore where
  begin := .ok ()
  mark := fun _ _ => .ok true
  process := fun _ _ => .ok ()
  commit := .ok ()

/-- `onSettled` throws after the `ack`: the same delivery is rejected as well. -/
theorem throwingReport_settles_twice :
    (handleMessage readDecimal throwingReport answeringStore placedMessage).trace =
        [.committed, .applied, .ack, .reject true] ∧
      ¬ SettledOnce (parseOrderPlaced readDecimal placedMessage).isSome
        (handleMessage readDecimal throwingReport answeringStore placedMessage).trace := by
  have htrace : (handleMessage readDecimal throwingReport answeringStore placedMessage).trace =
      [.committed, .applied, .ack, .reject true] := by
    decide +kernel
  refine ⟨htrace, ?_⟩
  rw [htrace]
  intro hsettled
  cases hsettled.once

end Marketplace.HandleMessage
