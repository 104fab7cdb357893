import Marketplace.Lib.Broker
import Marketplace.Messaging.Consumer

/-!
# `assertTopology`, while messages are under way

Every consumer and the bootstrap declare the same topology, each statement after the answer to the
one before, any number of them at a time and not all of them to the end; the producers only look
whether the exchange is there. The order of the declarations keeps a message from being dropped in
between.
-/

namespace Marketplace.RabbitTopology

open Broker Transition

def exchangeEvents : String := "shop.events"

def exchangeUnrouted : String := "shop.events.unrouted"

def exchangeDlx : String := "shop.events.dlx"

def queueOrderPlaced : String := "orders.order-placed"

def queueOrderPlacedDlq : String := "orders.order-placed.dlq"

def queueUnrouted : String := "shop.unrouted"

def routingKeyOrderPlaced : Text := ['o', 'r', 'd', 'e', 'r', '.', 'p', 'l', 'a', 'c', 'e', 'd']

def routingKeyOrderPlacedDead : Text :=
  routingKeyOrderPlaced ++ ['.', 'd', 'e', 'a', 'd']

def quorum : String × ArgumentValue := ("x-queue-type", .text "quorum")

def assertTopology : List Declaration :=
  [.assertExchange exchangeUnrouted ⟨.fanout, true, none⟩,
    .assertQueue queueUnrouted ⟨true, none, [quorum]⟩,
    .bindQueue ⟨queueUnrouted, exchangeUnrouted, []⟩,
    .assertExchange exchangeDlx ⟨.direct, true, none⟩,
    .assertQueue queueOrderPlacedDlq ⟨true, none, [quorum]⟩,
    .bindQueue ⟨queueOrderPlacedDlq, exchangeDlx, routingKeyOrderPlacedDead⟩,
    .assertExchange exchangeEvents ⟨.topic, true, some exchangeUnrouted⟩,
    .assertQueue queueOrderPlaced ⟨true, some (exchangeDlx, routingKeyOrderPlacedDead),
      [quorum, ("x-delivery-limit", .number OrderPlacedConsumer.deliveryLimit),
        ("x-dead-letter-strategy", .text "at-least-once"), ("x-overflow", .text "reject-publish")]⟩,
    .bindQueue ⟨queueOrderPlaced, exchangeEvents, routingKeyOrderPlaced⟩]

abbrev Process := Nat

section Model

variable (Message : Type)

/-- `progress` counts the declarations of a process that were answered. The rest is history: what
was published and routed, what came back as `basic.return`, and what was acknowledged. -/
structure State where
  topology : Topology
  progress : Process → Nat
  queues : String → List Message
  accepted : List Message
  returned : List Message
  settled : List Message

inductive Action where
  | declare (process : Process)
  | publish (message : Message) (routingKey : Text)
  /-- The queue of the consumer gives a message up: it was rejected, or returned too often. -/
  | deadLetter (message : Message)
  | ack (queue : String) (message : Message)

end Model

variable {Message : Type} [DecidableEq Message]

section Steps

variable (state : State Message)

def State.init : State Message where
  topology := .empty
  progress := fun _ => 0
  queues := fun _ => []
  accepted := []
  returned := []
  settled := []

def State.enqueue (queues : List String) (message : Message) : State Message :=
  { state with
    queues := fun queue => if queue ∈ queues then state.queues queue ++
      [message] else state.queues queue }

def State.dequeue (queue : String) (message : Message) : State Message :=
  { state with queues := Function.update state.queues queue ((state.queues queue).erase message) }

/-- A declaration that the broker refuses is the end of the process. -/
def declare (process : Process) : Option (State Message) :=
  (assertTopology[state.progress process]?).bind fun declaration =>
    (state.topology.declare declaration).map fun topology =>
      { state with
        topology := topology
        progress := Function.update state.progress process (state.progress process + 1) }

/-- `EventPublisher` publishes with `mandatory`, and only where `checkExchange` finds the
exchange. -/
def publish (message : Message) (routingKey : Text) : Option (State Message) :=
  if (state.topology.exchange exchangeEvents).isSome then
    match state.topology.route exchangeEvents routingKey with
    | [] => some { state with returned := state.returned ++ [message] }
    | queues => some { state.enqueue queues message with accepted := state.accepted ++ [message] }
  else none

/-- Where there is no queue for it, a dead letter is dropped. -/
def deadLetter (message : Message) : Option (State Message) :=
  if message ∈ state.queues queueOrderPlaced then
    some ((state.dequeue queueOrderPlaced message).enqueue
      (state.topology.deadLetterQueues queueOrderPlaced) message)
  else none

def ack (queue : String) (message : Message) : Option (State Message) :=
  if message ∈ state.queues queue then
    some { state.dequeue queue message with settled := state.settled ++ [message] }
  else none

end Steps

def step (state : State Message) : Action Message → Option (State Message)
  | .declare process => declare state process
  | .publish message routingKey => publish state message routingKey
  | .deadLetter message => deadLetter state message
  | .ack queue message => ack state queue message

/-! ### How far the topology has come -/

/-- What the first declarations make of an empty broker. -/
def declared (count : Nat) : Topology :=
  (assertTopology.take count).foldl (fun topology declaration =>
    (topology.declare declaration).getD topology) .empty

/-- A declaration that is next extends the topology, and an earlier one leaves it as it is. -/
theorem declare_declared : ∀ count < 10, ∀ index < 9, index ≤ count →
    assertTopology[index]?.map (declared count).declare =
      some (some (declared (max count (index + 1)))) := by
  decide +kernel

theorem exchange_declared : ∀ count < 10,
    ((declared count).exchange exchangeEvents).isSome = decide (7 ≤ count) := by
  decide +kernel

theorem declared_eq_last : ∀ count < 10, declared count = declared 9 → count = 9 := by
  decide +kernel

theorem deadLetterQueues_declared :
    (declared 9).deadLetterQueues queueOrderPlaced = [queueOrderPlacedDlq] := by
  decide +kernel

theorem accepts_orderPlaced (key : Text) :
    ExchangeType.topic.accepts routingKeyOrderPlaced key =
      decide (key = routingKeyOrderPlaced) := by
  have hplain : ∀ word ∈ words routingKeyOrderPlaced, word ≠ ['#'] ∧ word ≠ ['*'] := by decide
  rw [Bool.eq_iff_iff, decide_eq_true_eq, ExchangeType.accepts, topicMatches_plain hplain]
  exact ⟨fun heq => (words_injective heq).symm, fun heq => by rw [heq]⟩

theorem bindings_declared : ∀ count < 10, 7 ≤ count → (declared count).bindings =
    [⟨queueUnrouted, exchangeUnrouted, []⟩,
      ⟨queueOrderPlacedDlq, exchangeDlx, routingKeyOrderPlacedDead⟩] ++
      if count = 9 then [⟨queueOrderPlaced, exchangeEvents, routingKeyOrderPlaced⟩] else [] := by
  decide +kernel

theorem bound_events {count : Nat} (hlow : 7 ≤ count) (hhigh : count < 10) (key : Text) :
    (declared count).bound exchangeEvents .topic key =
      if count = 9 ∧ key = routingKeyOrderPlaced then [queueOrderPlaced] else [] := by
  have hunrouted : exchangeUnrouted ≠ exchangeEvents := by decide
  have hdlx : exchangeDlx ≠ exchangeEvents := by decide
  rw [Topology.bound, bindings_declared count hhigh hlow]
  by_cases hlast : count = 9
  · by_cases hkey : key = routingKeyOrderPlaced
    · simp [hlast, hkey, hunrouted, hdlx, accepts_orderPlaced, List.eraseDups_cons]
    · simp [hlast, hkey, hunrouted, hdlx, accepts_orderPlaced]
  · simp [hlast, hunrouted, hdlx]

theorem bound_unrouted {count : Nat} (hlow : 7 ≤ count) (hhigh : count < 10) (key : Text) :
    (declared count).bound exchangeUnrouted .fanout key = [queueUnrouted] := by
  have hevents : exchangeEvents ≠ exchangeUnrouted := by decide
  have hdlx : exchangeDlx ≠ exchangeUnrouted := by decide
  rw [Topology.bound, bindings_declared count hhigh hlow]
  by_cases hlast : count = 9
  · simp [hlast, hevents, hdlx, ExchangeType.accepts, List.eraseDups_cons]
  · simp [hlast, hdlx, ExchangeType.accepts, List.eraseDups_cons]

theorem exchanges_declared : ∀ count < 10, 7 ≤ count →
    (declared count).exchanges.length = 3 ∧
      (declared count).exchange exchangeEvents = some ⟨.topic, true, some exchangeUnrouted⟩ ∧
      (declared count).exchange exchangeUnrouted = some ⟨.fanout, true, none⟩ := by
  decide +kernel

/-- Every message that the exchange takes has a queue, whatever its key. -/
theorem route_declared {count : Nat} (hlow : 7 ≤ count) (hhigh : count < 10) (key : Text) :
    (declared count).route exchangeEvents key =
      if count = 9 ∧ key = routingKeyOrderPlaced then [queueOrderPlaced] else [queueUnrouted] := by
  obtain ⟨hlength, hevents, hunrouted⟩ := exchanges_declared count hhigh hlow
  rw [Topology.route, hlength, Topology.routeWithin, hevents]
  dsimp only
  rw [bound_events hlow hhigh]
  split
  · exact if_neg (List.cons_ne_nil _ _)
  · rw [if_pos rfl, Option.elim_some, Topology.routeWithin, hunrouted]
    dsimp only
    rw [bound_unrouted hlow hhigh]
    exact if_neg (List.cons_ne_nil _ _)

/-! ### Runs -/

variable {state next : State Message} {action : Action Message}

def queueNames : List String := [queueOrderPlaced, queueOrderPlacedDlq, queueUnrouted]

/-- The copies of a message in the queues. -/
def State.stored (state : State Message) (message : Message) : Nat :=
  (state.queues queueOrderPlaced).count message + (state.queues queueOrderPlacedDlq).count message +
    (state.queues queueUnrouted).count message

theorem queueNames_cases {queue : String} (hqueue : queue ∈ queueNames) :
    queue = queueOrderPlaced ∨ queue = queueOrderPlacedDlq ∨ queue = queueUnrouted := by
  simpa [queueNames] using hqueue

section Queues

variable (state) {queue : String} (hqueue : queue ∈ queueNames) (message other : Message)
include hqueue

theorem stored_enqueue : (state.enqueue [queue] message).stored other =
    state.stored other + [message].count other := by
  have hdlq : queueOrderPlaced ≠ queueOrderPlacedDlq := by decide
  have hunrouted : queueOrderPlaced ≠ queueUnrouted := by decide
  have hapart : queueOrderPlacedDlq ≠ queueUnrouted := by decide
  rcases queueNames_cases hqueue with rfl | rfl | rfl
  · simp [State.stored, State.enqueue, List.count_append, hdlq.symm, hunrouted.symm]
    omega
  · simp [State.stored, State.enqueue, List.count_append, hdlq, hapart.symm]
    omega
  · simp [State.stored, State.enqueue, List.count_append, hunrouted, hapart]
    omega

theorem stored_dequeue (hmem : message ∈ state.queues queue) :
    (state.dequeue queue message).stored other + [message].count other = state.stored other := by
  have hdlq : queueOrderPlaced ≠ queueOrderPlacedDlq := by decide
  have hunrouted : queueOrderPlaced ≠ queueUnrouted := by decide
  have hapart : queueOrderPlacedDlq ≠ queueUnrouted := by decide
  have hcount := (List.perm_cons_erase hmem).count_eq other
  simp only [List.count_cons, beq_iff_eq] at hcount
  rcases queueNames_cases hqueue with rfl | rfl | rfl
  · simp [State.stored, State.dequeue, hdlq.symm, hunrouted.symm, List.count_singleton]
    omega
  · simp [State.stored, State.dequeue, hdlq, hapart.symm, List.count_singleton]
    omega
  · simp [State.stored, State.dequeue, hunrouted, hapart, List.count_singleton]
    omega

end Queues

structure Inv (state : State Message) : Prop where
  declared : ∃ count < 10, state.topology = declared count ∧
    ∀ process, state.progress process ≤ count
  returned : state.returned = []
  /-- The queue of the consumer gets nothing before its binding is there. -/
  bound : state.queues queueOrderPlaced ≠ [] → state.topology = RabbitTopology.declared 9
  named : ∀ queue, queue ∉ queueNames → state.queues queue = []
  conserved : ∀ message,
    state.accepted.count message = state.stored message + state.settled.count message

theorem inv_init : Inv (State.init : State Message) where
  declared := ⟨0, by decide, rfl, fun _ => Nat.le_refl 0⟩
  returned := rfl
  bound hqueue := absurd rfl hqueue
  named _ _ := rfl
  conserved _ := rfl

/-- The next declaration of a process always succeeds, whatever the others have done. -/
theorem declare_spec {count : Nat} (hcount : count < 10) {index : Nat} (hindex : index ≤ count)
    {declaration : Declaration} (hnext : assertTopology[index]? = some declaration) :
    ∃ later < 10, (declared count).declare declaration = some (declared later) ∧ count ≤ later ∧
      index + 1 ≤ later := by
  have hlength : index < 9 := (List.getElem?_eq_some_iff.mp hnext).1
  have hdeclare := declare_declared count hcount index hlength hindex
  rw [hnext, Option.map_some, Option.some.injEq] at hdeclare
  exact ⟨max count (index + 1), by omega, hdeclare, Nat.le_max_left _ _, Nat.le_max_right _ _⟩

theorem Inv.declare (hinv : Inv state) {process : Process}
    (hstep : RabbitTopology.declare state process = some next) : Inv next := by
  obtain ⟨declaration, hnext, hstep⟩ := Option.bind_eq_some_iff.mp hstep
  obtain ⟨topology, htopology, rfl⟩ := Option.map_eq_some_iff.mp hstep
  obtain ⟨count, hcount, hsame, hprogress⟩ := hinv.declared
  obtain ⟨later, hlater, hdeclared, hgrows, hreaches⟩ :=
    declare_spec hcount (hprogress process) hnext
  rw [hsame, hdeclared] at htopology
  cases htopology
  refine ⟨⟨later, hlater, rfl, fun other => ?_⟩, hinv.returned, fun hqueue => ?_, hinv.named,
    hinv.conserved⟩
  · dsimp only
    by_cases heq : other = process
    · rw [heq, Function.update_self]
      exact hreaches
    · rw [Function.update_of_ne heq]
      exact Nat.le_trans (hprogress other) hgrows
  · have hlast := declared_eq_last count hcount (hsame.symm.trans (hinv.bound hqueue))
    have hnine : later = 9 := by omega
    rw [hnine]

/-- What `publish` does: the message has a place, in the queue of the consumer only if it is
bound. -/
theorem publish_spec (hinv : Inv state) {message : Message} {routingKey : Text}
    (hstep : RabbitTopology.publish state message routingKey = some next) :
    ∃ queue ∈ queueNames, (queue = queueOrderPlaced → state.topology = RabbitTopology.declared 9) ∧
      next = { state.enqueue [queue] message with accepted := state.accepted ++ [message] } := by
  obtain ⟨count, hcount, hsame, -⟩ := hinv.declared
  simp only [RabbitTopology.publish] at hstep
  split at hstep
  case isFalse => cases hstep
  rename_i hexchange
  rw [hsame, exchange_declared count hcount, decide_eq_true_eq] at hexchange
  rw [hsame, route_declared hexchange hcount] at hstep
  by_cases hbound : count = 9 ∧ routingKey = routingKeyOrderPlaced
  · rw [if_pos hbound] at hstep
    cases hstep
    exact ⟨queueOrderPlaced, by simp [queueNames], fun _ => by rw [hsame, hbound.1], rfl⟩
  · rw [if_neg hbound] at hstep
    cases hstep
    exact ⟨queueUnrouted, by simp [queueNames], fun heq => absurd heq (by decide), rfl⟩

theorem Inv.publish (hinv : Inv state) {message : Message} {routingKey : Text}
    (hstep : RabbitTopology.publish state message routingKey = some next) : Inv next := by
  obtain ⟨queue, hqueue, hbound, rfl⟩ := publish_spec hinv hstep
  refine ⟨hinv.declared, hinv.returned, fun hfilled => ?_, fun name hname => ?_, fun other => ?_⟩
  · by_cases heq : queue = queueOrderPlaced
    · exact hbound heq
    · refine hinv.bound ?_
      simpa [State.enqueue, Ne.symm heq] using hfilled
  · have hne : name ≠ queue := fun heq => hname (heq ▸ hqueue)
    simpa [State.enqueue, hne] using hinv.named name hname
  · have hstored := stored_enqueue state hqueue message other
    have hconserved := hinv.conserved other
    change (state.accepted ++ [message]).count other =
      (state.enqueue [queue] message).stored other + state.settled.count other
    rw [List.count_append, hstored, hconserved]
    omega

theorem Inv.deadLetter (hinv : Inv state) {message : Message}
    (hstep : RabbitTopology.deadLetter state message = some next) : Inv next := by
  simp only [RabbitTopology.deadLetter] at hstep
  split at hstep
  case isFalse => cases hstep
  rename_i hmem
  cases hstep
  have hplaced : queueOrderPlaced ∈ queueNames := by simp [queueNames]
  have hdlq : queueOrderPlacedDlq ∈ queueNames := by simp [queueNames]
  have hlast := hinv.bound (List.ne_nil_of_mem hmem)
  rw [hlast, deadLetterQueues_declared]
  refine ⟨hinv.declared, hinv.returned, fun _ => hlast, fun name hname => ?_, fun other => ?_⟩
  · have hne : name ≠ queueOrderPlaced := fun heq => hname (heq ▸ hplaced)
    have hne' : name ≠ queueOrderPlacedDlq := fun heq => hname (heq ▸ hdlq)
    simpa [State.enqueue, State.dequeue, hne, hne'] using hinv.named name hname
  · have hout := stored_dequeue state hplaced message other hmem
    have hin := stored_enqueue (state.dequeue queueOrderPlaced message) hdlq message other
    have hconserved := hinv.conserved other
    rw [hin, hout]
    exact hconserved

theorem Inv.ack (hinv : Inv state) {queue : String} {message : Message}
    (hstep : RabbitTopology.ack state queue message = some next) : Inv next := by
  simp only [RabbitTopology.ack] at hstep
  split at hstep
  case isFalse => cases hstep
  rename_i hmem
  cases hstep
  have hqueue : queue ∈ queueNames := by
    by_contra hnot
    rw [hinv.named queue hnot] at hmem
    cases hmem
  refine ⟨hinv.declared, hinv.returned, fun hfilled => ?_, fun name hname => ?_, fun other => ?_⟩
  · refine hinv.bound fun hnone => hfilled ?_
    by_cases heq : queueOrderPlaced = queue
    · subst heq
      rw [hnone] at hmem
      cases hmem
    · simpa [State.dequeue, heq] using hnone
  · have hne : name ≠ queue := fun heq => hname (heq ▸ hqueue)
    simpa [State.dequeue, hne] using hinv.named name hname
  · have hout := stored_dequeue state hqueue message other hmem
    have hconserved := hinv.conserved other
    change state.accepted.count other =
      (state.dequeue queue message).stored other + (state.settled ++ [message]).count other
    rw [List.count_append, hconserved]
    omega

theorem Inv.step (hinv : Inv state) (hstep : RabbitTopology.step state action = some next) :
    Inv next := by
  cases action with
  | declare process => exact hinv.declare hstep
  | publish message routingKey => exact hinv.publish hstep
  | deadLetter message => exact hinv.deadLetter hstep
  | ack queue message => exact hinv.ack hstep

theorem inv_reach (hreach : Reachable step State.init state) : Inv state :=
  hreach.invariant Inv inv_init fun _ _ _ _ hinv _ hstep => hinv.step hstep

/-- While any number of processes declare the topology, each at its own pace and some not to the
end: none of them is refused, no published message comes back, and all that the broker took is in
one of the queues or was acknowledged, a dead letter in the DLQ. Who has finished finds the whole
topology. -/
theorem nothing_lost (hreach : Reachable step (State.init : State Message) state) :
    (∀ process declaration, assertTopology[state.progress process]? = some declaration →
      (state.topology.declare declaration).isSome = true) ∧
    state.returned = [] ∧
    (∀ message, state.accepted.count message = state.stored message + state.settled.count message) ∧
    (∀ message, message ∈ state.queues queueOrderPlaced →
      state.topology.deadLetterQueues queueOrderPlaced = [queueOrderPlacedDlq]) ∧
    ∀ process, state.progress process = assertTopology.length → ∀ routingKey,
      state.topology.route exchangeEvents routingKey =
        if routingKey = routingKeyOrderPlaced then [queueOrderPlaced] else [queueUnrouted] := by
  have hinv := inv_reach hreach
  obtain ⟨count, hcount, hsame, hprogress⟩ := hinv.declared
  refine ⟨fun process declaration hnext => ?_, hinv.returned, hinv.conserved,
    fun message hmem => ?_, fun process hdone routingKey => ?_⟩
  · obtain ⟨later, -, hdeclared, -⟩ := declare_spec hcount (hprogress process) hnext
    rw [hsame, hdeclared]
    rfl
  · rw [hinv.bound (List.ne_nil_of_mem hmem)]
    exact deadLetterQueues_declared
  · have hfinished := hprogress process
    rw [hdone, show assertTopology.length = 9 from rfl] at hfinished
    have hlast : count = 9 := by omega
    rw [hsame, route_declared (by omega) hcount]
    simp [hlast]

/-- One process is ahead of the other; a message comes before the binding, and one after it is
rejected. -/
def twoSetups : List (Action Nat) :=
  List.replicate 7 (.declare 0) ++ [.publish 1 routingKeyOrderPlaced, .declare 1, .declare 0,
    .declare 0,
    .publish 2 routingKeyOrderPlaced, .publish 3 routingKeyOrderPlaced, .deadLetter 2,
    .ack queueOrderPlaced 3]

theorem nothing_lost_twoSetups :
    ∃ state : State Nat, Reachable step State.init state ∧ state.queues queueUnrouted = [1] ∧
      state.queues queueOrderPlacedDlq = [2] ∧ state.settled = [3] ∧ state.progress 1 = 1 ∧
      ∀ message, state.accepted.count message =
        state.stored message + state.settled.count message := by
  obtain ⟨state, hreach, hcheck⟩ : ∃ state : State Nat, Reachable step State.init state ∧
      decide (state.queues queueUnrouted = [1] ∧ state.queues queueOrderPlacedDlq = [2] ∧
        state.settled = [3] ∧ state.progress 1 = 1) = true :=
    exists_reach_of_runWithin twoSetups (by decide +kernel)
  obtain ⟨hunrouted, hdlq, hsettled, hprogress⟩ := of_decide_eq_true hcheck
  exact ⟨state, hreach, hunrouted, hdlq, hsettled, hprogress, (nothing_lost hreach).2.2.1⟩

end Marketplace.RabbitTopology
