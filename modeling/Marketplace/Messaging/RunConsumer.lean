import Marketplace.Messaging.ConsumerOnce
import Marketplace.Queue.OrderTasks

/-!
# The consumer as it is started: a receipt for every order

`run-consumer.ts` gives `handleMessage` one hook, `afterApplied`, which adds a job to the queue of
receipts. The command may be executed without an answer, late, or twice; the database, the queue and
the process may fail at any step.
-/

namespace Marketplace.RunConsumer

open OrderPlacedConsumer (Delivery Message Phase parseOrderPlaced)
open OrderTasks (Once jobSendReceipt receiptJobId)
open Transition

/-- The last three fields are history: the `add` commands that were sent, those that Redis has
executed, and the messages that the broker has seen acked. -/
structure State where
  consumer : OrderPlacedConsumer.State
  tasks : OrderTasks.Queue
  sent : List (Delivery × OrderPlacedEvent)
  stored : List (Delivery × OrderPlacedEvent)
  acked : List Message

inductive Action where
  | consumer (action : OrderPlacedConsumer.Action)
  /-- Redis executes the `add` of a delivery. -/
  | store (delivery : Delivery) (event : OrderPlacedEvent)
  | finishJob (id : Text) (completed : Bool)
  | removeJob (id : Text)
  | tick (elapsed : Nat)

def State.init : State where
  consumer := .init
  tasks := .init
  sent := []
  stored := []
  acked := []

section Steps

variable (state : State)

/-- What the wiring allows: there is no `afterEffect`, and `afterApplied` returns when `add` has. -/
def allows : OrderPlacedConsumer.Action → Bool
  | .afterEffect _ requeue => !requeue
  | .afterApplied delivery =>
      match state.consumer.handlers delivery with
      | .afterApplied event _ => (delivery, event) ∈ state.stored
      | _ => false
  | .hookThrows delivery =>
      match state.consumer.handlers delivery with
      | .afterApplied _ _ => true
      | _ => false
  | _ => true

/-- The hook is called: its command is on the way. -/
def sends : OrderPlacedConsumer.Action → List (Delivery × OrderPlacedEvent)
  | .afterEffect delivery _ =>
      match state.consumer.handlers delivery with
      | .afterEffect event _ => [(delivery, event)]
      | _ => []
  | _ => []

/-- The message that an ack reaches. -/
def acks : OrderPlacedConsumer.Action → List Message
  | .ack delivery => (state.consumer.unacked delivery).toList
  | _ => []

def consume (action : OrderPlacedConsumer.Action) : Option State :=
  if allows state action then
    (OrderPlacedConsumer.step state.consumer action).map fun consumer =>
      { state with
        consumer := consumer
        sent := sends state action ++ state.sent
        acked := acks state action ++ state.acked }
  else none

/-- `tasks.enqueueReceipt` with the order and the email of the event. -/
def store (delivery : Delivery) (event : OrderPlacedEvent) : Option State :=
  if (delivery, event) ∈ state.sent then
    some { state with
      tasks := state.tasks.enqueueReceipt ⟨event.data.orderId, event.data.customerEmail⟩
      stored := (delivery, event) :: state.stored }
  else none

end Steps

def step (state : State) : Action → Option State
  | .consumer action => consume state action
  | .store delivery event => store state delivery event
  | .finishJob id completed => some { state with tasks := state.tasks.finish id completed }
  | .removeJob id => (state.tasks.remove id).map fun tasks => { state with tasks := tasks }
  | .tick elapsed => some { state with tasks := state.tasks.tick elapsed }

variable {state after : State} {delivery : Delivery} {event : OrderPlacedEvent}

/-! ### The handlers that are about to ack -/

/-- A handler is ready to ack only when its hook has returned. -/
theorem acking_of_step {consumer next : OrderPlacedConsumer.State}
    {action : OrderPlacedConsumer.Action} {applied : Bool}
    (hstep : OrderPlacedConsumer.step consumer action = some next)
    (hacking : next.handlers delivery = .acking event applied) :
    consumer.handlers delivery = .acking event applied ∨
      action = .afterApplied delivery ∧
        consumer.handlers delivery = .afterApplied event applied := by
  have hmove : ∀ (mover : Delivery) (phase : Phase),
      (∀ event applied, phase ≠ .acking event applied) →
      next.handlers = Function.update consumer.handlers mover phase →
      consumer.handlers delivery = .acking event applied := by
    intro mover phase hphase hhandlers
    by_cases heq : delivery = mover
    · rw [hhandlers, heq, Function.update_self] at hacking
      exact absurd hacking (hphase event applied)
    · rwa [hhandlers, Function.update_of_ne heq] at hacking
  cases action with
  | afterApplied mover =>
      simp only [OrderPlacedConsumer.step, OrderPlacedConsumer.afterApplied] at hstep
      split at hstep <;> cases hstep
      rename_i current currentApplied hphase
      by_cases heq : delivery = mover
      · subst heq
        have hsame : Phase.acking current currentApplied = .acking event applied := by
          simpa [OrderPlacedConsumer.State.goto] using hacking
        obtain ⟨rfl, rfl⟩ := Phase.acking.inj hsame
        exact .inr ⟨rfl, hphase⟩
      · exact .inl (by simpa [OrderPlacedConsumer.State.goto, heq] using hacking)
  | arrive event =>
      cases hstep
      exact .inl hacking
  | deadLetter message =>
      simp only [OrderPlacedConsumer.step, OrderPlacedConsumer.deadLetter] at hstep
      split at hstep <;> cases hstep
      exact .inl hacking
  | closeChannel mover =>
      simp only [OrderPlacedConsumer.step, OrderPlacedConsumer.closeChannel] at hstep
      split at hstep <;> cases hstep
      exact .inl (by simpa using hacking)
  | deliver mover message =>
      simp only [OrderPlacedConsumer.step, OrderPlacedConsumer.deliver] at hstep
      split at hstep <;> cases hstep
      exact .inl (hmove mover (.received message) (by simp) rfl)
  | parse mover =>
      simp only [OrderPlacedConsumer.step, OrderPlacedConsumer.parse] at hstep
      split at hstep
      case h_2 => cases hstep
      split at hstep <;> cases hstep
      · exact .inl (hmove mover (.marking _) (by simp) rfl)
      · exact .inl (hmove mover (.settled .dead) (by simp)
          (by simp [OrderPlacedConsumer.State.goto]))
  | mark mover =>
      simp only [OrderPlacedConsumer.step, OrderPlacedConsumer.mark] at hstep
      split at hstep
      case h_2 => cases hstep
      split at hstep <;> cases hstep
      · exact .inl (hmove mover (.applying _) (by simp) rfl)
      · exact .inl (hmove mover (.committing _ false) (by simp) rfl)
  | applyEffect mover =>
      simp only [OrderPlacedConsumer.step, OrderPlacedConsumer.applyEffect] at hstep
      split at hstep
      case h_2 => cases hstep
      split at hstep <;> cases hstep
      all_goals exact .inl (hmove mover (.committing _ true) (by simp) rfl)
  | commit mover answered =>
      simp only [OrderPlacedConsumer.step, OrderPlacedConsumer.commit] at hstep
      split at hstep <;> cases hstep
      cases answered with
      | false => exact .inl (hmove mover (.failing _) (by simp) rfl)
      | true => exact .inl (hmove mover (.afterEffect _ _) (by simp) rfl)
  | abort mover =>
      simp only [OrderPlacedConsumer.step, OrderPlacedConsumer.abort] at hstep
      split at hstep <;> cases hstep
      all_goals exact .inl (hmove mover (.failing _) (by simp) rfl)
  | afterEffect mover requeue =>
      simp only [OrderPlacedConsumer.step, OrderPlacedConsumer.afterEffect] at hstep
      split at hstep
      case h_2 => cases hstep
      split at hstep <;> cases hstep
      · exact .inl (hmove mover (.settled .requeued) (by simp)
          (by simp [OrderPlacedConsumer.State.goto]))
      · exact .inl (hmove mover (.afterApplied _ _) (by simp) rfl)
  | hookThrows mover =>
      simp only [OrderPlacedConsumer.step, OrderPlacedConsumer.hookThrows] at hstep
      split at hstep <;> cases hstep
      all_goals exact .inl (hmove mover (.failing _) (by simp) rfl)
  | ack mover =>
      simp only [OrderPlacedConsumer.step, OrderPlacedConsumer.ack] at hstep
      split at hstep
      case h_2 => cases hstep
      split at hstep <;> cases hstep
      · exact .inl (hmove mover (.settled _) (by simp) rfl)
      · exact .inl (hmove mover (.failing _) (by simp) rfl)
  | rejectFailed mover =>
      simp only [OrderPlacedConsumer.step, OrderPlacedConsumer.rejectFailed] at hstep
      split at hstep <;> cases hstep
      exact .inl (hmove mover (.settled .failed) (by simp)
        (by simp [OrderPlacedConsumer.State.goto]))
  | crash mover =>
      simp only [OrderPlacedConsumer.step, OrderPlacedConsumer.crash] at hstep
      split at hstep <;> cases hstep
      exact .inl (hmove mover .crashed (by simp) rfl)

/-! ### The invariant -/

/-- The receipt of the order is in the queue, or was. -/
def State.Receipted (state : State) (event : OrderPlacedEvent) : Prop :=
  state.tasks.Added (receiptJobId event.data.orderId)

structure Inv (state : State) : Prop where
  consumer : OrderPlacedConsumer.Inv state.consumer
  tasks : Once state.tasks
  stored : ∀ entry ∈ state.stored, state.Receipted entry.2
  acking : ∀ delivery event applied, state.consumer.handlers delivery = .acking event applied →
    state.Receipted event
  acked : ∀ message ∈ state.acked,
    state.consumer.Processed message.content.eventId ∧ state.Receipted message.content

theorem inv_init : Inv .init where
  consumer := OrderPlacedConsumer.inv_init
  tasks := OrderTasks.once_init
  stored := by simp [State.init]
  acking := by simp [State.init, OrderPlacedConsumer.State.init]
  acked := by simp [State.init]

/-- The queue moves on, and keeps what was added. -/
theorem Inv.setTasks (hinv : Inv state) {tasks : OrderTasks.Queue} (honce : Once tasks)
    (hkeep : ∀ id, state.tasks.Added id → tasks.Added id) : Inv { state with tasks := tasks } where
  consumer := hinv.consumer
  tasks := honce
  stored entry hentry := hkeep _ (hinv.stored entry hentry)
  acking delivery event applied hphase := hkeep _ (hinv.acking delivery event applied hphase)
  acked message hmessage :=
    ⟨(hinv.acked message hmessage).1, hkeep _ (hinv.acked message hmessage).2⟩

theorem Inv.store (hinv : Inv state)
    (hstore : RunConsumer.store state delivery event = some after) :
    Inv after := by
  unfold RunConsumer.store at hstore
  split at hstore <;> cases hstore
  have hqueue :=
    hinv.setTasks (hinv.tasks.enqueueReceipt ⟨event.data.orderId, event.data.customerEmail⟩)
    fun id hadded => hadded.enqueueReceipt _
  refine ⟨hqueue.consumer, hqueue.tasks, ?_, hqueue.acking, hqueue.acked⟩
  intro entry hentry
  rcases List.mem_cons.mp hentry with rfl | hold
  · exact OrderTasks.added_enqueueReceipt hinv.tasks ⟨event.data.orderId, event.data.customerEmail⟩
  · exact hqueue.stored entry hold

/-- The message of a handler that is about to ack has its effect and its receipt. -/
theorem Inv.acks (hinv : Inv state) {action : OrderPlacedConsumer.Action}
    {next : OrderPlacedConsumer.State}
    (hstep : OrderPlacedConsumer.step state.consumer action = some next) {message : Message}
    (hmessage : message ∈ acks state action) :
    state.consumer.Processed message.content.eventId ∧ state.Receipted message.content := by
  cases action with
  | ack delivery =>
      simp only [OrderPlacedConsumer.step, OrderPlacedConsumer.ack] at hstep
      split at hstep
      case h_2 => cases hstep
      rename_i event applied hphase
      have hunacked : state.consumer.unacked delivery = some message := by
        simpa [RunConsumer.acks] using hmessage
      have hcontent := hinv.consumer.broker.content delivery message event hunacked
        (by rw [hphase, Phase.event])
      rw [hcontent]
      refine ⟨hinv.consumer.tables.done delivery event (by rw [hphase, Phase.done]), ?_⟩
      exact hinv.acking delivery event applied hphase
  | _ => simp [RunConsumer.acks] at hmessage

theorem Inv.consume (hinv : Inv state) {action : OrderPlacedConsumer.Action}
    (hconsume : RunConsumer.consume state action = some after) : Inv after := by
  unfold RunConsumer.consume at hconsume
  split at hconsume
  case isFalse => cases hconsume
  rename_i hallows
  obtain ⟨next, hstep, rfl⟩ := Option.map_eq_some_iff.mp hconsume
  refine ⟨hinv.consumer.step hstep, hinv.tasks, hinv.stored, ?_, ?_⟩
  · intro delivery event applied hacking
    rcases acking_of_step hstep hacking with hbefore | ⟨rfl, hphase⟩
    · exact hinv.acking delivery event applied hbefore
    · simp only [allows, hphase, decide_eq_true_eq] at hallows
      exact hinv.stored (delivery, event) hallows
  · intro message hmessage
    have hdone : state.consumer.Processed message.content.eventId ∧
        state.Receipted message.content := by
      rcases List.mem_append.mp hmessage with hnew | hold
      · exact hinv.acks hstep hnew
      · exact hinv.acked message hold
    exact ⟨hinv.consumer.tables.processed_step hstep hdone.1, hdone.2⟩

theorem Inv.step (hinv : Inv state) {action : Action}
    (hstep : RunConsumer.step state action = some after) : Inv after := by
  cases action with
  | consumer action => exact hinv.consume hstep
  | store delivery event => exact hinv.store hstep
  | finishJob id completed =>
      cases hstep
      exact hinv.setTasks (hinv.tasks.finish id completed) fun other hadded =>
        hadded.finish id completed
  | removeJob id =>
      obtain ⟨tasks, hremove, rfl⟩ := Option.map_eq_some_iff.mp hstep
      exact hinv.setTasks (hinv.tasks.remove hremove) fun other hadded =>
        hadded.remove hinv.tasks hremove
  | tick elapsed =>
      cases hstep
      exact hinv.setTasks (hinv.tasks.tick elapsed) fun _ hadded => hadded

/-- A message that has been acked has left its effect and its receipt, and there is one receipt of
an order for as long as it is kept. -/
theorem receipts_once (hreach : Reachable step State.init state) :
    (∀ message ∈ state.acked, ∀ event, parseOrderPlaced message = some event →
      state.consumer.Processed event.eventId ∧
      ∃ job ∈ state.tasks.all, job.name = jobSendReceipt ∧
        job.id = receiptJobId event.data.orderId) ∧
    (∀ orderId, (state.tasks.jobs.filter fun job => job.id = receiptJobId orderId).length ≤ 1) ∧
    state.tasks.all.Pairwise fun earlier later => earlier.id = later.id →
      ∃ limit, earlier.keptUntil = some limit ∧ limit < later.createdAt := by
  have hinv : Inv state := hreach.invariant Inv inv_init fun _ _ _ _ hinv _ => hinv.step
  refine ⟨?_, fun orderId => hinv.tasks.filter_length_le (receiptJobId orderId), hinv.tasks.all⟩
  intro message hmessage event hparse
  have hcontent : message.content = event := by
    unfold parseOrderPlaced at hparse
    split at hparse <;> cases hparse
    rfl
  exact hcontent ▸ hinv.acked message hmessage

def firstOrder : OrderPlacedEvent := buildOrderPlacedEvent ⟨1, "ada@example.com", 200, "UAH", []⟩ 0

/-- The process dies after the COMMIT, and again after `add`; the third delivery is acked. -/
def twoCrashes : List Action :=
  [.consumer (.arrive firstOrder), .consumer (.deliver 0 ⟨firstOrder, 0⟩), .consumer (.parse 0),
    .consumer (.mark 0), .consumer (.applyEffect 0), .consumer (.commit 0 true),
    .consumer (.crash 0),
    .consumer (.closeChannel 0), .consumer (.deliver 1 ⟨firstOrder, 1⟩), .consumer (.parse 1),
    .consumer (.mark 1), .consumer (.commit 1 true), .consumer (.afterEffect 1 false),
    .store 1 firstOrder, .consumer (.crash 1), .consumer (.closeChannel 1),
    .consumer (.deliver 2 ⟨firstOrder, 2⟩), .consumer (.parse 2), .consumer (.mark 2),
    .consumer (.commit 2 true), .consumer (.afterEffect 2 false), .tick 1000, .store 2 firstOrder,
    .consumer (.afterApplied 2), .consumer (.ack 2)]

theorem receipts_once_twoCrashes : ∃ state, Reachable step State.init state ∧
    state.acked = [⟨firstOrder, 2⟩] ∧ state.tasks.all.length = 1 ∧
      state.consumer.Processed firstOrder.eventId ∧
      ∃ job ∈ state.tasks.all, job.name = jobSendReceipt ∧ job.id = receiptJobId 1 := by
  obtain ⟨state, hreach, hcheck⟩ : ∃ state, Reachable step State.init state ∧
      decide (state.acked = [⟨firstOrder, 2⟩] ∧ state.tasks.all.length = 1) = true :=
    exists_reach_of_runWithin twoCrashes (by decide +kernel)
  obtain ⟨hacked, hjobs⟩ := of_decide_eq_true hcheck
  exact ⟨state, hreach, hacked, hjobs,
    (receipts_once hreach).1 ⟨firstOrder, 2⟩ (by simp [hacked]) firstOrder (by decide)⟩

end Marketplace.RunConsumer
