import Marketplace.Lib.Inserting
import Marketplace.Messaging.Consumer

/-!
# The effect is applied once, and no message is lost

The mark and the effect of an event are inserted in one transaction, so they are committed together.
A handler that acks has either committed the effect itself or has seen the committed mark.
-/

namespace Marketplace.OrderPlacedConsumer

open ReadCommitted ReadCommitted.Table Transition

variable {state after : State} {delivery : Delivery} {action : Action} {phase next : Phase}
  {event : OrderPlacedEvent} {eventId : Text}

/-! ### What a handler has inserted, and what it has seen -/

/-- The mark that the open transaction has inserted. -/
def Phase.marked : Phase → Option ((Text × String) × Unit)
  | .applying event | .committing event true => some ((event.eventId, consumerOrderPlaced), ())
  | _ => none

/-- The effect that the open transaction has inserted. -/
def Phase.recorded : Phase → Option (Text × ProcessedOrderEvent)
  | .committing event true => some (event.eventId, ⟨event.data.orderId⟩)
  | _ => none

/-- The event whose effect the handler knows to be committed. -/
def Phase.done : Phase → Option OrderPlacedEvent
  | .committing event false | .afterEffect event _ | .afterApplied event _ | .acking event _ =>
      some event
  | _ => none

/-- The two tables and the log. -/
structure TablesOk (state : State) : Prop where
  messages : state.processedMessages.Inserting fun delivery => (state.handlers delivery).marked
  events : state.processedOrderEvents.Inserting fun delivery => (state.handlers delivery).recorded
  agree : ∀ eventId, state.processedMessages.committed (eventId, consumerOrderPlaced) = none ↔
    state.processedOrderEvents.committed eventId = none
  applied : ∀ eventId, eventId ∈ state.applied ↔ state.Processed eventId
  nodup : state.applied.Nodup
  done : ∀ delivery event, (state.handlers delivery).done = some event →
    state.Processed event.eventId

theorem tablesOk_init : TablesOk State.init where
  messages := inserting_empty
  events := inserting_empty
  agree := by simp [State.init]
  applied := by simp [State.init, State.Processed]
  nodup := List.nodup_nil
  done := by simp [State.init, Phase.done]

/-- A step that writes to neither table. -/
theorem TablesOk.goto (htables : TablesOk state)
    (hhandlers : after.handlers = Function.update state.handlers delivery next)
    (hmessages : after.processedMessages = state.processedMessages)
    (hevents : after.processedOrderEvents = state.processedOrderEvents)
    (happlied : after.applied = state.applied)
    (hmarked : next.marked = (state.handlers delivery).marked)
    (hrecorded : next.recorded = (state.handlers delivery).recorded)
    (hdone : ∀ event, next.done = some event → state.Processed event.eventId) : TablesOk after where
  messages := by
    rw [hmessages, hhandlers]
    apply htables.messages.congr
    intro other
    by_cases heq : other = delivery <;> simp [heq, hmarked]
  events := by
    rw [hevents, hhandlers]
    apply htables.events.congr
    intro other
    by_cases heq : other = delivery <;> simp [heq, hrecorded]
  agree := by
    rw [hmessages, hevents]
    exact htables.agree
  applied := by
    unfold State.Processed
    rw [happlied, hevents]
    exact htables.applied
  nodup := by
    rw [happlied]
    exact htables.nodup
  done other event := by
    unfold State.Processed
    rw [hhandlers, hevents]
    by_cases heq : other = delivery
    · simp only [heq, Function.update_self]
      exact hdone event
    · simp only [ne_eq, heq, not_false_eq_true, Function.update_of_ne]
      exact htables.done other event

/-- A step that moves no handler. -/
theorem TablesOk.keep (htables : TablesOk state) (hhandlers : after.handlers = state.handlers)
    (hmessages : after.processedMessages = state.processedMessages)
    (hevents : after.processedOrderEvents = state.processedOrderEvents)
    (happlied : after.applied = state.applied) : TablesOk after where
  messages := by
    rw [hmessages, hhandlers]
    exact htables.messages
  events := by
    rw [hevents, hhandlers]
    exact htables.events
  agree := by
    rw [hmessages, hevents]
    exact htables.agree
  applied := by
    unfold State.Processed
    rw [happlied, hevents]
    exact htables.applied
  nodup := by
    rw [happlied]
    exact htables.nodup
  done := by
    unfold State.Processed
    rw [hhandlers, hevents]
    exact htables.done

theorem TablesOk.rollback (htables : TablesOk state) (hmarked : next.marked = none)
    (hrecorded : next.recorded = none) (hdone : next.done = none) :
    TablesOk (state.rollback delivery next) where
  messages := by
    apply htables.messages.rollback
    · simp [State.rollback, State.goto, hmarked]
    · intro other hne
      simp [State.rollback, State.goto, hne]
  events := by
    apply htables.events.rollback
    · simp [State.rollback, State.goto, hrecorded]
    · intro other hne
      simp [State.rollback, State.goto, hne]
  agree := by simpa [State.rollback] using htables.agree
  applied := by simpa [State.rollback, State.goto, State.Processed] using htables.applied
  nodup := htables.nodup
  done other event := by
    by_cases heq : other = delivery
    · simp [State.rollback, State.goto, heq, hdone]
    · simpa [State.rollback, State.goto, State.Processed, heq] using htables.done other event

theorem TablesOk.mark (htables : TablesOk state) (hphase : state.handlers delivery = .marking event)
    (hstep : mark state delivery = some after) : TablesOk after := by
  have hnone : (state.handlers delivery).marked = none := by simp [hphase, Phase.marked]
  simp only [OrderPlacedConsumer.mark, hphase] at hstep
  split at hstep
  · rename_i houtcome
    cases hstep
    exact
      { messages := by
          apply htables.messages.put hnone houtcome
          · simp [State.goto, Phase.marked]
          · intro other hne
            simp [State.goto, hne]
        events := by
          apply htables.events.congr
          intro other
          by_cases heq : other = delivery <;> simp [State.goto, heq, hphase, Phase.recorded]
        agree := by simpa [State.goto] using htables.agree
        applied := htables.applied
        nodup := htables.nodup
        done := by
          intro other event'
          by_cases heq : other = delivery
          · simp [State.goto, heq, Phase.done]
          · simp only [State.goto, ne_eq, heq, not_false_eq_true, Function.update_of_ne]
            exact htables.done other event' }
  · rename_i houtcome
    cases hstep
    have hspec := htables.messages.outcome_spec hnone (event.eventId, consumerOrderPlaced)
    rw [houtcome] at hspec
    obtain ⟨row, hmark⟩ := hspec
    refine htables.goto rfl rfl rfl rfl ?_ ?_ ?_
    · simp [hphase, Phase.marked]
    · simp [hphase, Phase.recorded]
    · -- the mark is committed, so the effect is
      rintro event' hevent
      simp only [Phase.done, Option.some.injEq] at hevent
      subst hevent
      have hsome := (htables.agree event.eventId).not.mp (by simp [hmark])
      exact Option.ne_none_iff_exists'.mp hsome
  · cases hstep

theorem marked_of_recorded {row : ProcessedOrderEvent}
    (hrecorded : phase.recorded = some (eventId, row)) :
    phase.marked = some ((eventId, consumerOrderPlaced), ()) := by
  cases phase with
  | committing event applied =>
      cases applied <;> simp_all [Phase.recorded, Phase.marked]
  | _ => cases hrecorded

/-- Whoever has inserted the mark may insert the effect: nobody else has. -/
theorem TablesOk.insertOutcome (htables : TablesOk state)
    (hphase : state.handlers delivery = .applying event) :
    state.processedOrderEvents.insertOutcome delivery event.eventId = .inserted := by
  have hmarked : (state.handlers delivery).marked = some ((event.eventId, consumerOrderPlaced),
      ()) := by
    simp [hphase, Phase.marked]
  have hfresh := htables.messages.fresh delivery _ _ hmarked
  refine htables.events.insertOutcome (by simp [hphase, Phase.recorded])
    ((htables.agree _).mp hfresh) ?_
  intro other row hrecorded
  have hother : delivery = other :=
    htables.messages.tx_eq hmarked (marked_of_recorded hrecorded)
  simp [← hother, hphase, Phase.recorded] at hrecorded

theorem TablesOk.applyEffect (htables : TablesOk state)
    (hphase : state.handlers delivery = .applying event)
    (hstep : applyEffect state delivery = some after) : TablesOk after := by
  have hinserted := htables.insertOutcome hphase
  simp only [OrderPlacedConsumer.applyEffect, hphase, hinserted, Option.some.injEq] at hstep
  subst hstep
  exact
    { messages := by
        apply htables.messages.congr
        intro other
        by_cases heq : other = delivery <;> simp [State.goto, heq, hphase, Phase.marked]
      events := by
        apply htables.events.put (by simp [hphase, Phase.recorded]) hinserted
        · simp [State.goto, Phase.recorded]
        · intro other hne
          simp [State.goto, hne]
      agree := by simpa [State.goto] using htables.agree
      applied := by simpa [State.goto, State.Processed] using htables.applied
      nodup := htables.nodup
      done := by
        intro other event'
        by_cases heq : other = delivery
        · simp [State.goto, heq, Phase.done]
        · simpa [State.goto, heq, State.Processed] using htables.done other event' }

theorem commit_cases {applied answered : Bool}
    (hphase : state.handlers delivery = .committing event applied)
    (hstep : commit state delivery answered = some after) :
    ∃ next, (next.marked = none ∧ next.recorded = none ∧ ∀ other, next.done = some other →
      other = event) ∧
      next.event = some event ∧ after.handlers = Function.update state.handlers delivery next ∧
      after.processedMessages = state.processedMessages.commit delivery ∧
      after.processedOrderEvents = state.processedOrderEvents.commit delivery ∧
      after.applied = if applied then event.eventId :: state.applied else state.applied := by
  simp only [OrderPlacedConsumer.commit, hphase, Option.some.injEq] at hstep
  subst hstep
  refine ⟨_, ?_, ?_, rfl, rfl, rfl, rfl⟩
  · cases answered <;> simp [Phase.marked, Phase.recorded, Phase.done, eq_comm]
  · cases answered <;> simp [Phase.event]

/-- What a COMMIT adds to the effects. -/
theorem TablesOk.processed_commit {applied : Bool} (htables : TablesOk state)
    (hphase : state.handlers delivery = .committing event applied)
    (hevents : after.processedOrderEvents = state.processedOrderEvents.commit delivery)
    (eventId : Text) :
    after.Processed eventId ↔ (applied = true ∧ eventId = event.eventId) ∨
      state.Processed eventId := by
  simp only [State.Processed, hevents, htables.events.committed_commit, hphase]
  cases applied with
  | false => simp [Phase.recorded]
  | true =>
      by_cases heq : event.eventId = eventId
      · simp [Phase.recorded, heq]
      · simp [Phase.recorded, heq, Ne.symm heq]

theorem TablesOk.commit {applied answered : Bool} (htables : TablesOk state)
    (hphase : state.handlers delivery = .committing event applied)
    (hstep : commit state delivery answered = some after) : TablesOk after := by
  obtain ⟨next, ⟨hmarked, hrecorded, hdone⟩, -, hhandlers, hmessages, hevents, happlied⟩ :=
    commit_cases hphase hstep
  have hprocessed := htables.processed_commit hphase hevents
  constructor
  · rw [hmessages, hhandlers]
    apply htables.messages.commit
    · simp [hmarked]
    · intro other hne
      simp [hne]
  · rw [hevents, hhandlers]
    apply htables.events.commit
    · simp [hrecorded]
    · intro other hne
      simp [hne]
  · intro eventId
    rw [hmessages, hevents, htables.messages.committed_commit,
      htables.events.committed_commit, hphase]
    cases applied with
    | false => simpa [Phase.marked, Phase.recorded] using htables.agree eventId
    | true =>
        by_cases heq : event.eventId = eventId
        · simp [Phase.marked, Phase.recorded, heq]
        · simpa [Phase.marked, Phase.recorded, heq] using htables.agree eventId
  · intro eventId
    rw [hprocessed, happlied, ← htables.applied]
    cases applied <;> simp
  · rw [happlied]
    cases applied with
    | false => exact htables.nodup
    | true =>
        -- the effect was not committed before, because this transaction could insert it
        refine List.nodup_cons.mpr ⟨?_, htables.nodup⟩
        rw [htables.applied]
        rintro ⟨row, hrow⟩
        have hfresh := htables.events.fresh delivery event.eventId ⟨event.data.orderId⟩
          (by simp [hphase, Phase.recorded])
        simp [hfresh] at hrow
  · intro other event'
    rw [hprocessed, hhandlers]
    by_cases heq : other = delivery
    · rw [heq, Function.update_self]
      intro hsome
      rw [hdone event' hsome]
      cases applied with
      | true => exact .inl ⟨rfl, rfl⟩
      | false => exact .inr (htables.done delivery event (by simp [hphase, Phase.done]))
    · rw [Function.update_of_ne heq]
      intro hsome
      exact .inr (htables.done other event' hsome)

/-! ### The messages -/

/-- A message that comes back changes nothing but the lists of the broker. -/
theorem reject_eq (state : State) (delivery : Delivery) (requeue : Bool) : ∃ queue dlq,
    state.reject delivery requeue = { state with
      queue, dlq, unacked := Function.update state.unacked delivery none } := by
  unfold State.reject
  split
  · split
    · exact ⟨_, _, rfl⟩
    · exact ⟨_, _, rfl⟩
  · rename_i hnone
    refine ⟨state.queue, state.dlq, ?_⟩
    rw [← hnone, Function.update_eq_self]

section Reject

variable (requeue : Bool)

@[simp]
theorem handlers_reject : (state.reject delivery requeue).handlers = state.handlers := by
  obtain ⟨queue, dlq, heq⟩ := reject_eq state delivery requeue
  rw [heq]

@[simp]
theorem processedMessages_reject :
    (state.reject delivery requeue).processedMessages = state.processedMessages := by
  obtain ⟨queue, dlq, heq⟩ := reject_eq state delivery requeue
  rw [heq]

@[simp]
theorem processedOrderEvents_reject :
    (state.reject delivery requeue).processedOrderEvents = state.processedOrderEvents := by
  obtain ⟨queue, dlq, heq⟩ := reject_eq state delivery requeue
  rw [heq]

@[simp]
theorem applied_reject : (state.reject delivery requeue).applied = state.applied := by
  obtain ⟨queue, dlq, heq⟩ := reject_eq state delivery requeue
  rw [heq]

@[simp]
theorem unacked_reject :
    (state.reject delivery requeue).unacked = Function.update state.unacked delivery none := by
  obtain ⟨queue, dlq, heq⟩ := reject_eq state delivery requeue
  rw [heq]

end Reject

/-- A message that is with some consumer is with this one or stays where it is. -/
theorem exists_unacked (delivery : Delivery) (value : Option Message)
    (hmessage : ∃ other message, state.unacked other = some message ∧ message.content = event) :
    (∃ message, state.unacked delivery = some message ∧ message.content = event) ∨
      ∃ other message, Function.update state.unacked delivery value other = some message ∧
        message.content = event := by
  obtain ⟨other, message, hunacked, hcontent⟩ := hmessage
  by_cases heq : other = delivery
  · exact .inl ⟨message, heq ▸ hunacked, hcontent⟩
  · exact .inr ⟨other, message, by simp [heq, hunacked], hcontent⟩

theorem exists_unacked_of_take
    (hmessage : ∃ other message, Function.update state.unacked delivery none other = some message ∧
      message.content = event) :
    ∃ other message, state.unacked other = some message ∧ message.content = event := by
  obtain ⟨other, message, hunacked, hcontent⟩ := hmessage
  have hne : other ≠ delivery := by
    rintro rfl
    simp at hunacked
  exact ⟨other, message, by simpa [hne] using hunacked, hcontent⟩

/-- A rejected message stays with the broker. -/
theorem has_reject (requeue : Bool) : (state.reject delivery requeue).Has event ↔
    state.Has event := by
  unfold State.reject
  cases hunacked : state.unacked delivery with
  | none => rfl
  | some message =>
      cases requeue with
      | false =>
          simp only [Bool.false_eq_true, if_false, State.Has, State.take]
          constructor
          · rintro (hqueue | hother | ⟨dead, hdead, hcontent⟩)
            · exact .inl hqueue
            · exact .inr (.inl (exists_unacked_of_take hother))
            · rcases List.mem_append.mp hdead with hold | hnew
              · exact .inr (.inr ⟨dead, hold, hcontent⟩)
              · rw [List.mem_singleton.mp hnew] at hcontent
                exact .inr (.inl ⟨delivery, message, hunacked, hcontent⟩)
          · rintro (hqueue | hother | ⟨dead, hdead, hcontent⟩)
            · exact .inl hqueue
            · rcases exists_unacked delivery none hother with ⟨mine, hmine, hcontent⟩ | hother
              · have heq : message = mine := by simpa [hunacked] using hmine
                exact .inr (.inr ⟨message, by simp, heq ▸ hcontent⟩)
              · exact .inr (.inl hother)
            · exact .inr (.inr ⟨dead, List.mem_append_left _ hdead, hcontent⟩)
      | true =>
          simp only [if_true, State.Has, State.take]
          constructor
          · rintro (⟨queued, hqueued, hcontent⟩ | hother | hdead)
            · rcases List.mem_append.mp hqueued with hold | hnew
              · exact .inl ⟨queued, hold, hcontent⟩
              · rw [List.mem_singleton.mp hnew] at hcontent
                exact .inr (.inl ⟨delivery, message, hunacked, hcontent⟩)
            · exact .inr (.inl (exists_unacked_of_take hother))
            · exact .inr (.inr hdead)
          · rintro (⟨queued, hqueued, hcontent⟩ | hother | hdead)
            · exact .inl ⟨queued, List.mem_append_left _ hqueued, hcontent⟩
            · rcases exists_unacked delivery none hother with ⟨mine, hmine, hcontent⟩ | hother
              · have heq : message = mine := by simpa [hunacked] using hmine
                exact .inl ⟨message.again, by simp, heq ▸ hcontent⟩
              · exact .inr (.inl hother)
            · exact .inr (.inr hdead)

/-- Taking a message out of the queue and leaving it somewhere else. -/
theorem mem_queue_cases (message : Message)
    (hmessage : ∃ queued ∈ state.queue, queued.content = event) :
    (∃ queued ∈ state.queue.erase message, queued.content = event) ∨ message.content = event := by
  obtain ⟨queued, hqueued, hcontent⟩ := hmessage
  by_cases heq : queued = message
  · exact .inr (heq ▸ hcontent)
  · exact .inl ⟨queued, (List.mem_erase_of_ne heq).mpr hqueued, hcontent⟩

/-- A handler works on the message of its delivery, and an idle one has none. -/
structure BrokerOk (state : State) : Prop where
  content : ∀ delivery message event, state.unacked delivery = some message →
    (state.handlers delivery).event = some event → message.content = event
  idle : ∀ delivery, state.handlers delivery = .idle → state.unacked delivery = none

theorem brokerOk_init : BrokerOk State.init where
  content := by simp [State.init]
  idle := by simp [State.init]

/-- A handler goes on with the same event, or with none; its message may go back. -/
theorem BrokerOk.goto (next : Phase) (hbroker : BrokerOk state) (hidle : next ≠ .idle)
    (hevent : ∀ event, next.event = some event → (state.handlers delivery).event = some event)
    (hhandlers : after.handlers = Function.update state.handlers delivery next)
    (hunacked : after.unacked = state.unacked ∨
      after.unacked = Function.update state.unacked delivery none) : BrokerOk after where
  content other message event hmessage hsome := by
    have hbefore : state.unacked other = some message := by
      rcases hunacked with hsame | htaken
      · rwa [hsame] at hmessage
      · by_cases heq : other = delivery
        · simp [htaken, heq] at hmessage
        · simpa [htaken, heq] using hmessage
    apply hbroker.content other message event hbefore
    by_cases heq : other = delivery
    · rw [hhandlers, heq, Function.update_self] at hsome
      rw [heq]
      exact hevent event hsome
    · simpa [hhandlers, heq] using hsome
  idle other hphase := by
    have hne : other ≠ delivery := by
      rintro rfl
      exact hidle (by simpa [hhandlers] using hphase)
    have hbefore := hbroker.idle other (by simpa [hhandlers, hne] using hphase)
    rcases hunacked with hsame | htaken
    · rwa [hsame]
    · simpa [htaken, hne] using hbefore

/-! ### One step -/

/-- A handler that writes nothing goes on, or ends; its message may go back to the broker. -/
inductive Goes (state : State) (delivery : Delivery) : Phase → Phase → State → Prop
  | parsed (message : Message) (event : OrderPlacedEvent)
      (hparse : parseOrderPlaced message = some event) :
      Goes state delivery (.received message) (.marking event) state
  | poison (message : Message) :
      Goes state delivery (.received message) (.settled .dead) (state.reject delivery false)
  | requeued (event : OrderPlacedEvent) (applied : Bool) :
      Goes state delivery (.afterEffect event applied) (.settled .requeued)
        (state.reject delivery true)
  | hooked (event : OrderPlacedEvent) (applied : Bool) :
      Goes state delivery (.afterEffect event applied) (.afterApplied event applied) state
  | applied (event : OrderPlacedEvent) (applied : Bool) :
      Goes state delivery (.afterApplied event applied) (.acking event applied) state
  | threw (phase : Phase) (event : OrderPlacedEvent) (hphase : phase.event = some event)
      (hmarked : phase.marked = none) (hrecorded : phase.recorded = none) :
      Goes state delivery phase (.failing event) state
  | failed (event : OrderPlacedEvent) :
      Goes state delivery (.failing event) (.settled .failed) (state.reject delivery true)

/-- Everything a step can do. -/
inductive Runs (state : State) : Action → State → Prop
  | arrive (event : OrderPlacedEvent) :
      Runs state (.arrive event) { state with queue := state.queue ++ [⟨event, 0⟩] }
  | deliver (delivery : Delivery) (message : Message) (hidle : state.handlers delivery = .idle)
      (hmessage : message ∈ state.queue) :
      Runs state (.deliver delivery message) { (state.goto delivery (.received message)) with
        queue := state.queue.erase message
        unacked := Function.update state.unacked delivery (some message) }
  | deadLetter (message : Message) (hmessage : message ∈ state.queue) :
      Runs state (.deadLetter message) { state with
        queue := state.queue.erase message
        dlq := state.dlq ++ [message] }
  | goes (action : Action) (delivery : Delivery) (next : Phase) (broker : State)
      (hgoes : Goes state delivery (state.handlers delivery) next broker) :
      Runs state action (broker.goto delivery next)
  | mark (delivery : Delivery) (event : OrderPlacedEvent) (after : State)
      (hphase : state.handlers delivery = .marking event)
      (hstep : mark state delivery = some after) :
      Runs state (.mark delivery) after
  | applyEffect (delivery : Delivery) (event : OrderPlacedEvent) (after : State)
      (hphase : state.handlers delivery = .applying event)
      (hstep : applyEffect state delivery = some after) : Runs state (.applyEffect delivery) after
  | commit (delivery : Delivery) (answered : Bool) (event : OrderPlacedEvent) (applied : Bool)
      (after : State) (hphase : state.handlers delivery = .committing event applied)
      (hstep : commit state delivery answered = some after) :
      Runs state (.commit delivery answered) after
  | abort (delivery : Delivery) (event : OrderPlacedEvent)
      (hphase : (state.handlers delivery).event = some event) :
      Runs state (.abort delivery) (state.rollback delivery (.failing event))
  | ack (delivery : Delivery) (event : OrderPlacedEvent) (applied : Bool) (outcome : SettledOutcome)
      (hphase : state.handlers delivery = .acking event applied) :
      Runs state (.ack delivery) ((state.take delivery).goto delivery (.settled outcome))
  | closeChannel (delivery : Delivery) : Runs state (.closeChannel delivery)
      (state.reject delivery true)
  | crash (delivery : Delivery) : Runs state (.crash delivery) (state.rollback delivery .crashed)

theorem step_runs (hstep : step state action = some after) : Runs state action after := by
  cases action with
  | arrive event =>
      cases hstep
      exact .arrive event
  | deliver delivery message =>
      simp only [step, deliver] at hstep
      split at hstep <;> cases hstep
      rename_i hguard
      exact .deliver delivery message hguard.1 hguard.2.1
  | deadLetter message =>
      simp only [step, deadLetter] at hstep
      split at hstep <;> cases hstep
      exact .deadLetter message (by assumption)
  | parse delivery =>
      simp only [step, parse] at hstep
      split at hstep
      case h_2 => cases hstep
      rename_i message hphase
      split at hstep <;> cases hstep
      · rename_i event hparse
        exact .goes _ delivery _ _ (hphase ▸ .parsed message event hparse)
      · exact .goes _ delivery _ _ (hphase ▸ .poison message)
  | mark delivery =>
      cases hphase : state.handlers delivery with
      | marking event => exact .mark delivery event after hphase hstep
      | _ => simp [step, mark, hphase] at hstep
  | applyEffect delivery =>
      cases hphase : state.handlers delivery with
      | applying event => exact .applyEffect delivery event after hphase hstep
      | _ => simp [step, applyEffect, hphase] at hstep
  | commit delivery answered =>
      cases hphase : state.handlers delivery with
      | committing event applied => exact .commit delivery answered event applied after hphase hstep
      | _ => simp [step, commit, hphase] at hstep
  | abort delivery =>
      simp only [step, abort] at hstep
      split at hstep <;> cases hstep
      all_goals
        rename_i hphase
        exact .abort delivery _ (by simp [hphase, Phase.event])
  | afterEffect delivery requeue =>
      simp only [step, afterEffect] at hstep
      split at hstep
      case h_2 => cases hstep
      rename_i event applied hphase
      split at hstep <;> cases hstep
      · exact .goes _ delivery _ _ (hphase ▸ .requeued event applied)
      · exact .goes _ delivery _ _ (hphase ▸ .hooked event applied)
  | afterApplied delivery =>
      simp only [step, afterApplied] at hstep
      split at hstep <;> cases hstep
      rename_i event applied hphase
      exact .goes _ delivery _ _ (hphase ▸ .applied event applied)
  | hookThrows delivery =>
      simp only [step, hookThrows] at hstep
      split at hstep <;> cases hstep
      all_goals
        rename_i event applied hphase
        exact .goes _ delivery _ _ (hphase ▸ .threw _ event rfl rfl rfl)
  | ack delivery =>
      simp only [step, ack] at hstep
      split at hstep
      case h_2 => cases hstep
      rename_i event applied hphase
      split at hstep <;> cases hstep
      · exact .ack delivery event applied _ hphase
      · exact .goes _ delivery _ _ (hphase ▸ .threw _ event rfl rfl rfl)
  | rejectFailed delivery =>
      simp only [step, rejectFailed] at hstep
      split at hstep <;> cases hstep
      rename_i event hphase
      exact .goes _ delivery _ _ (hphase ▸ .failed event)
  | closeChannel delivery =>
      simp only [step, closeChannel] at hstep
      split at hstep <;> cases hstep
      exact .closeChannel delivery
  | crash delivery =>
      simp only [step, crash] at hstep
      split at hstep <;> cases hstep
      exact .crash delivery

section Goes

variable {broker : State} (hgoes : Goes state delivery phase next broker)

include hgoes

theorem Goes.labels : next.marked = phase.marked ∧ next.recorded = phase.recorded ∧
    ∀ event, next.done = some event → phase.done = some event := by
  cases hgoes <;> simp_all [Phase.marked, Phase.recorded, Phase.done]

theorem Goes.event_eq (hsome : next.event = some event) : phase.event = some event := by
  cases hgoes with
  | parsed message event hparse =>
      unfold parseOrderPlaced at hparse
      split at hparse <;> cases hparse
      exact hsome
  | _ => simp_all [Phase.event]

theorem Goes.next_ne_idle : next ≠ .idle := by
  cases hgoes <;> simp

theorem Goes.frame : broker.handlers = state.handlers ∧
    broker.processedMessages = state.processedMessages ∧
    broker.processedOrderEvents = state.processedOrderEvents ∧ broker.applied = state.applied ∧
    (broker.unacked = state.unacked ∨
      broker.unacked = Function.update state.unacked delivery none) := by
  cases hgoes <;> simp

theorem Goes.has : broker.Has event ↔ state.Has event := by
  cases hgoes <;> simp [has_reject]

end Goes

/-- The statements of the transaction leave the messages where they are. -/
structure Writes (state : State) (delivery : Delivery) (event : OrderPlacedEvent) (after : State) :
    Prop where
  handlers : ∃ next, after.handlers = Function.update state.handlers delivery next ∧
    next.event = some event
  queue : after.queue = state.queue
  unacked : after.unacked = state.unacked
  dlq : after.dlq = state.dlq

theorem writes_mark (hphase : state.handlers delivery = .marking event)
    (hstep : mark state delivery = some after) : Writes state delivery event after := by
  simp only [mark, hphase] at hstep
  split at hstep <;> cases hstep
  all_goals exact ⟨⟨_, rfl, rfl⟩, rfl, rfl, rfl⟩

theorem writes_applyEffect (hphase : state.handlers delivery = .applying event)
    (hstep : applyEffect state delivery = some after) : Writes state delivery event after := by
  simp only [applyEffect, hphase] at hstep
  split at hstep <;> cases hstep
  all_goals exact ⟨⟨_, rfl, rfl⟩, rfl, rfl, rfl⟩

theorem writes_commit {applied answered : Bool}
    (hphase : state.handlers delivery = .committing event applied)
    (hstep : commit state delivery answered = some after) : Writes state delivery event after := by
  simp only [commit, hphase, Option.some.injEq] at hstep
  subst hstep
  refine ⟨⟨_, rfl, ?_⟩, rfl, rfl, rfl⟩
  cases answered <;> rfl

theorem Writes.has (hwrites : Writes state delivery event after) {other : OrderPlacedEvent} :
    after.Has other ↔ state.Has other := by
  rw [State.Has, hwrites.queue, hwrites.unacked, hwrites.dlq, State.Has]

theorem TablesOk.step (htables : TablesOk state) (hstep : step state action = some after) :
    TablesOk after := by
  cases step_runs hstep with
  | arrive event => exact htables.keep rfl rfl rfl rfl
  | deadLetter message hmessage => exact htables.keep rfl rfl rfl rfl
  | closeChannel delivery => apply htables.keep <;> simp
  | deliver delivery message hidle hmessage =>
      refine htables.goto rfl rfl rfl rfl ?_ ?_ ?_
      all_goals simp [hidle, Phase.marked, Phase.recorded, Phase.done]
  | goes action delivery next broker hgoes =>
      obtain ⟨hmarked, hrecorded, hdone⟩ := hgoes.labels
      obtain ⟨hhandlers, hmessages, hevents, happlied, -⟩ := hgoes.frame
      refine htables.goto (by rw [State.goto, hhandlers]) hmessages hevents happlied hmarked
        hrecorded ?_
      intro event hsome
      exact htables.done delivery event (hdone event hsome)
  | mark delivery event after hphase hstep => exact htables.mark hphase hstep
  | applyEffect delivery event after hphase hstep => exact htables.applyEffect hphase hstep
  | commit delivery answered event applied after hphase hstep => exact htables.commit hphase hstep
  | abort delivery event hphase => exact htables.rollback rfl rfl rfl
  | ack delivery event applied outcome hphase =>
      refine htables.goto rfl rfl rfl rfl ?_ ?_ ?_
      all_goals simp [hphase, Phase.marked, Phase.recorded, Phase.done]
  | crash delivery => exact htables.rollback rfl rfl rfl

theorem BrokerOk.keep (hbroker : BrokerOk state) (hhandlers : after.handlers = state.handlers)
    (hunacked : after.unacked = state.unacked ∨
      ∃ delivery, after.unacked = Function.update state.unacked delivery none) :
        BrokerOk after where
  content other message event hmessage hsome := by
    rw [hhandlers] at hsome
    refine hbroker.content other message event ?_ hsome
    rcases hunacked with hsame | ⟨delivery, htaken⟩
    · rwa [hsame] at hmessage
    · by_cases heq : other = delivery
      · simp [htaken, heq] at hmessage
      · simpa [htaken, heq] using hmessage
  idle other hphase := by
    rw [hhandlers] at hphase
    have hbefore := hbroker.idle other hphase
    rcases hunacked with hsame | ⟨delivery, htaken⟩
    · rwa [hsame]
    · by_cases heq : other = delivery
      · simp [htaken, heq]
      · simpa [htaken, heq] using hbefore

theorem BrokerOk.writes (hbroker : BrokerOk state) (hwrites : Writes state delivery event after)
    (hphase : (state.handlers delivery).event = some event) : BrokerOk after := by
  obtain ⟨next, hhandlers, hnext⟩ := hwrites.handlers
  refine hbroker.goto next ?_ ?_ hhandlers (.inl hwrites.unacked)
  · rintro rfl
    cases hnext
  · intro other hsome
    rw [hphase, ← hnext, hsome]

theorem BrokerOk.step (hbroker : BrokerOk state) (hstep : step state action = some after) :
    BrokerOk after := by
  cases step_runs hstep with
  | arrive event => exact hbroker.keep rfl (.inl rfl)
  | deadLetter message hmessage => exact hbroker.keep rfl (.inl rfl)
  | closeChannel delivery => exact hbroker.keep (by simp) (.inr ⟨delivery, by simp⟩)
  | deliver delivery message hidle hmessage =>
      constructor
      · intro other unacked event hunacked hsome
        by_cases heq : other = delivery
        · simp_all [State.goto, Phase.event]
        · exact hbroker.content other unacked event (by simpa [heq] using hunacked)
            (by simpa [State.goto, heq] using hsome)
      · intro other hphase
        have hne : other ≠ delivery := by
          rintro rfl
          simp [State.goto] at hphase
        simpa [hne] using hbroker.idle other (by simpa [State.goto, hne] using hphase)
  | goes action delivery next broker hgoes =>
      obtain ⟨hhandlers, -, -, -, hunacked⟩ := hgoes.frame
      exact hbroker.goto next hgoes.next_ne_idle (fun event => hgoes.event_eq)
        (by rw [State.goto, hhandlers]) hunacked
  | mark delivery event after hphase hstep =>
      exact hbroker.writes (writes_mark hphase hstep) (by simp [hphase, Phase.event])
  | applyEffect delivery event after hphase hstep =>
      exact hbroker.writes (writes_applyEffect hphase hstep) (by simp [hphase, Phase.event])
  | commit delivery answered event applied after hphase hstep =>
      exact hbroker.writes (writes_commit hphase hstep) (by simp [hphase, Phase.event])
  | abort delivery event hphase =>
      refine hbroker.goto (.failing event) (by simp) ?_ rfl (.inl rfl)
      intro other hsome
      rw [hphase, ← hsome, Phase.event]
  | ack delivery event applied outcome hphase =>
      refine hbroker.goto (.settled outcome) (by simp) ?_ rfl (.inr rfl)
      simp [Phase.event]
  | crash delivery =>
      refine hbroker.goto .crashed (by simp) ?_ rfl (.inl rfl)
      simp [Phase.event]

/-! ### Where an event goes -/

/-- A step leaves a row of the effects alone, or commits one that was not there. -/
theorem TablesOk.committed_step (htables : TablesOk state)
    (hstep : OrderPlacedConsumer.step state action = some after)
    (eventId : Text) :
    after.processedOrderEvents.committed eventId = state.processedOrderEvents.committed eventId ∨
      state.processedOrderEvents.committed eventId = none ∧ ∃ delivery event,
        (state.handlers delivery).event = some event ∧ eventId = event.eventId ∧
        after.processedOrderEvents.committed eventId = some ⟨event.data.orderId⟩ := by
  cases step_runs hstep with
  | arrive event => exact .inl rfl
  | deliver delivery message hidle hmessage => exact .inl rfl
  | deadLetter message hmessage => exact .inl rfl
  | closeChannel delivery => simp
  | goes action delivery next broker hgoes =>
      obtain ⟨-, -, hevents, -, -⟩ := hgoes.frame
      exact .inl (by rw [State.goto, hevents])
  | mark delivery event after hphase hstep =>
      simp only [OrderPlacedConsumer.mark, hphase] at hstep
      split at hstep <;> cases hstep
      all_goals exact .inl rfl
  | applyEffect delivery event after hphase hstep =>
      simp only [OrderPlacedConsumer.applyEffect, hphase] at hstep
      split at hstep <;> cases hstep
      · exact .inl (by simp)
      · exact .inl rfl
  | commit delivery answered event applied after hphase hstep =>
      obtain ⟨next, -, -, -, -, hevents, -⟩ := commit_cases hphase hstep
      rw [hevents, htables.events.committed_commit, hphase]
      cases applied with
      | false => simp [Phase.recorded]
      | true =>
          by_cases heq : event.eventId = eventId
          · have hfresh := htables.events.fresh delivery event.eventId ⟨event.data.orderId⟩
              (by simp [hphase, Phase.recorded])
            refine .inr ⟨heq ▸ hfresh, delivery, event, by simp [hphase, Phase.event], heq.symm, ?_⟩
            simp [Phase.recorded, heq]
          · simp [Phase.recorded, heq]
  | abort delivery event hphase => exact .inl (by simp [State.rollback])
  | ack delivery event applied outcome hphase => exact .inl rfl
  | crash delivery => exact .inl (by simp [State.rollback])

theorem TablesOk.processed_step (htables : TablesOk state)
    (hstep : OrderPlacedConsumer.step state action = some after)
    (hprocessed : state.Processed eventId) : after.Processed eventId := by
  obtain ⟨row, hrow⟩ := hprocessed
  rcases htables.committed_step hstep eventId with hsame | ⟨hnone, -⟩
  · exact ⟨row, hsame.trans hrow⟩
  · simp [hrow] at hnone

/-- The broker lets a message go only when its effect is committed. -/
theorem has_step (htables : TablesOk state) (hbroker : BrokerOk state)
    (hstep : step state action = some after) (hhas : state.Has event) :
    after.Has event ∨ state.Processed event.eventId := by
  cases step_runs hstep with
  | arrive arrived =>
      left
      rcases hhas with ⟨queued, hqueued, hcontent⟩ | hrest
      · exact .inl ⟨queued, List.mem_append_left _ hqueued, hcontent⟩
      · exact .inr hrest
  | deliver delivery message hidle hmessage =>
      left
      rcases hhas with hqueued | hunacked | hdead
      · rcases mem_queue_cases message hqueued with hqueued | hcontent
        · exact .inl hqueued
        · exact .inr (.inl ⟨delivery, message, by simp, hcontent⟩)
      · rcases exists_unacked delivery (some message) hunacked with ⟨mine, hmine, -⟩ | hunacked
        · simp [hbroker.idle delivery hidle] at hmine
        · exact .inr (.inl hunacked)
      · exact .inr (.inr hdead)
  | deadLetter message hmessage =>
      left
      rcases hhas with hqueued | hunacked | ⟨dead, hdead, hcontent⟩
      · rcases mem_queue_cases message hqueued with hqueued | hcontent
        · exact .inl hqueued
        · exact .inr (.inr ⟨message, by simp, hcontent⟩)
      · exact .inr (.inl hunacked)
      · exact .inr (.inr ⟨dead, List.mem_append_left _ hdead, hcontent⟩)
  | closeChannel delivery => exact .inl ((has_reject true).mpr hhas)
  | goes action delivery next broker hgoes => exact .inl (hgoes.has.mpr hhas)
  | mark delivery event after hphase hstep => exact .inl ((writes_mark hphase hstep).has.mpr hhas)
  | applyEffect delivery event after hphase hstep =>
      exact .inl ((writes_applyEffect hphase hstep).has.mpr hhas)
  | commit delivery answered event applied after hphase hstep =>
      exact .inl ((writes_commit hphase hstep).has.mpr hhas)
  | abort delivery event hphase => exact .inl hhas
  | crash delivery => exact .inl hhas
  | ack delivery acked applied outcome hphase =>
      rcases hhas with hqueued | hunacked | hdead
      · exact .inl (.inl hqueued)
      · rcases exists_unacked delivery none hunacked with ⟨message, hmessage, hcontent⟩ | hunacked
        · -- the message that is acked is the one whose effect the handler has seen
          right
          have hacked :=
            hbroker.content delivery message acked hmessage (by simp [hphase, Phase.event])
          rw [← hcontent, hacked]
          exact htables.done delivery acked (by simp [hphase, Phase.done])
        · exact .inl (.inr (.inl hunacked))
      · exact .inl (.inr (.inr hdead))

/-- Nothing but an arrival brings an event to the broker. -/
theorem has_of_step (hstep : step state action = some after) (hhas : after.Has event) :
    state.Has event ∨ action = .arrive event := by
  cases step_runs hstep with
  | arrive arrived =>
      rcases hhas with ⟨queued, hqueued, hcontent⟩ | hrest
      · rcases List.mem_append.mp hqueued with hold | hnew
        · exact .inl (.inl ⟨queued, hold, hcontent⟩)
        · rw [List.mem_singleton.mp hnew] at hcontent
          exact .inr (hcontent ▸ rfl)
      · exact .inl (.inr hrest)
  | deliver delivery message hidle hmessage =>
      left
      rcases hhas with ⟨queued, hqueued, hcontent⟩ | ⟨other, taken, htaken, hcontent⟩ | hdead
      · exact .inl ⟨queued, List.mem_of_mem_erase hqueued, hcontent⟩
      · by_cases heq : other = delivery
        · have hsame : message = taken := by simpa [heq] using htaken
          exact .inl ⟨message, hmessage, hsame ▸ hcontent⟩
        · exact .inr (.inl ⟨other, taken, by simpa [heq] using htaken, hcontent⟩)
      · exact .inr (.inr hdead)
  | deadLetter message hmessage =>
      left
      rcases hhas with ⟨queued, hqueued, hcontent⟩ | hunacked | ⟨dead, hdead, hcontent⟩
      · exact .inl ⟨queued, List.mem_of_mem_erase hqueued, hcontent⟩
      · exact .inr (.inl hunacked)
      · rcases List.mem_append.mp hdead with hold | hnew
        · exact .inr (.inr ⟨dead, hold, hcontent⟩)
        · rw [List.mem_singleton.mp hnew] at hcontent
          exact .inl ⟨message, hmessage, hcontent⟩
  | closeChannel delivery => exact .inl ((has_reject true).mp hhas)
  | goes action delivery next broker hgoes => exact .inl (hgoes.has.mp hhas)
  | mark delivery event after hphase hstep => exact .inl ((writes_mark hphase hstep).has.mp hhas)
  | applyEffect delivery event after hphase hstep =>
      exact .inl ((writes_applyEffect hphase hstep).has.mp hhas)
  | commit delivery answered event applied after hphase hstep =>
      exact .inl ((writes_commit hphase hstep).has.mp hhas)
  | abort delivery event hphase => exact .inl hhas
  | crash delivery => exact .inl hhas
  | ack delivery acked applied outcome hphase =>
      left
      rcases hhas with hqueued | hunacked | hdead
      · exact .inl hqueued
      · exact .inr (.inl (exists_unacked_of_take hunacked))
      · exact .inr (.inr hdead)

/-- Everything the consumer knows of is about events with this property. -/
structure Only (property : OrderPlacedEvent → Prop) (state : State) : Prop where
  messages : ∀ event, state.Has event → property event
  handlers : ∀ delivery event, (state.handlers delivery).event = some event → property event
  rows : ∀ eventId row, state.processedOrderEvents.committed eventId = some row →
    ∃ event, property event ∧ eventId = event.eventId ∧ row = ⟨event.data.orderId⟩

variable {property property' : OrderPlacedEvent → Prop}

theorem only_init : Only property State.init where
  messages := by simp [State.Has, State.init]
  handlers := by simp [State.init, Phase.event]
  rows := by simp [State.init]

theorem Only.mono (honly : Only property state) (hle : ∀ event, property event → property' event) :
    Only property' state where
  messages event hhas := hle event (honly.messages event hhas)
  handlers delivery event hsome := hle event (honly.handlers delivery event hsome)
  rows eventId row hrow := by
    obtain ⟨event, hevent, heq⟩ := honly.rows eventId row hrow
    exact ⟨event, hle event hevent, heq⟩

theorem event_of_step (hstep : step state action = some after)
    (hsome : (after.handlers delivery).event = some event) :
    (state.handlers delivery).event = some event ∨ state.Has event := by
  have hmove : ∀ (mover : Delivery) (next : Phase),
      after.handlers = Function.update state.handlers mover next →
      (∀ event, next.event = some event → (state.handlers mover).event = some event) →
      (state.handlers delivery).event = some event := by
    intro mover next hhandlers hnext
    by_cases heq : delivery = mover
    · rw [hhandlers, heq, Function.update_self] at hsome
      exact heq ▸ hnext event hsome
    · simpa [hhandlers, heq] using hsome
  have hwrites : ∀ (mover : Delivery) (current : OrderPlacedEvent),
      Writes state mover current after → (state.handlers mover).event = some current →
      (state.handlers delivery).event = some event := by
    intro mover current hwrites hphase
    obtain ⟨next, hhandlers, hnext⟩ := hwrites.handlers
    apply hmove mover next hhandlers
    intro other hother
    rw [hphase, ← hnext, hother]
  cases step_runs hstep with
  | arrive event => exact .inl hsome
  | deadLetter message hmessage => exact .inl hsome
  | closeChannel delivery => exact .inl (by simpa using hsome)
  | deliver mover message hidle hmessage =>
      by_cases heq : delivery = mover
      · have hcontent : message.content = event := by
          simpa [State.goto, heq, Phase.event] using hsome
        exact .inr (.inl ⟨message, hmessage, hcontent⟩)
      · exact .inl (by simpa [State.goto, heq] using hsome)
  | goes action mover next broker hgoes =>
      obtain ⟨hhandlers, -⟩ := hgoes.frame
      exact .inl (hmove mover next (by rw [State.goto, hhandlers]) fun event => hgoes.event_eq)
  | mark mover current after hphase hstep =>
      exact .inl (hwrites mover current (writes_mark hphase hstep) (by simp [hphase, Phase.event]))
  | applyEffect mover current after hphase hstep =>
      exact .inl (hwrites mover current (writes_applyEffect hphase hstep)
        (by simp [hphase, Phase.event]))
  | commit mover answered current applied after hphase hstep =>
      exact .inl (hwrites mover current (writes_commit hphase hstep)
        (by simp [hphase, Phase.event]))
  | abort mover current hphase =>
      refine .inl (hmove mover (.failing current) rfl ?_)
      intro other hother
      rw [hphase, ← hother, Phase.event]
  | ack mover acked applied outcome hphase =>
      exact .inl (hmove mover (.settled outcome) rfl (by simp [Phase.event]))
  | crash mover => exact .inl (hmove mover .crashed rfl (by simp [Phase.event]))

theorem Only.step (honly : Only property state) (htables : TablesOk state)
    (harrive : ∀ event, action = .arrive event → property event)
    (hstep : step state action = some after) : Only property after where
  messages event hhas := by
    rcases has_of_step hstep hhas with hold | hnew
    · exact honly.messages event hold
    · exact harrive event hnew
  handlers delivery event hsome := by
    rcases event_of_step hstep hsome with hold | hhas
    · exact honly.handlers delivery event hold
    · exact honly.messages event hhas
  rows eventId row hrow := by
    rcases htables.committed_step hstep eventId with hsame | ⟨-, delivery, event, hsome, heq, hnew⟩
    · exact honly.rows eventId row (hsame.symm.trans hrow)
    · refine ⟨event, honly.handlers delivery event hsome, heq, ?_⟩
      rw [hnew, Option.some.injEq] at hrow
      exact hrow.symm

structure Inv (state : State) : Prop where
  tables : TablesOk state
  broker : BrokerOk state

theorem inv_init : Inv State.init := ⟨tablesOk_init, brokerOk_init⟩

theorem Inv.step (hinv : Inv state) (hstep : step state action = some after) : Inv after :=
  ⟨hinv.tables.step hstep, hinv.broker.step hstep⟩

/-- Whatever the broker once took stays with it until its effect is there, and then the effect
stays. -/
theorem Inv.delivered_step (hinv : Inv state)
    (hstep : OrderPlacedConsumer.step state action = some after)
    (hdelivered : state.Delivered eventId) : after.Delivered eventId := by
  rcases hdelivered with ⟨event, hhas, rfl⟩ | hprocessed
  · rcases has_step hinv.tables hinv.broker hstep hhas with hhas | hprocessed
    · exact .inl ⟨event, hhas, rfl⟩
    · exact .inr (hinv.tables.processed_step hstep hprocessed)
  · exact .inr (hinv.tables.processed_step hstep hprocessed)

theorem delivered_arrive (state : State) (event : OrderPlacedEvent) :
    ∀ after, arrive state event = some after → after.Delivered event.eventId := by
  rintro after ⟨⟩
  exact .inl ⟨event, .inl ⟨⟨event, 0⟩, by simp, rfl⟩, rfl⟩

/-- However often an event is delivered, its effect is committed at most once, and by the
transaction that says so. -/
theorem applied_once (hreach : Reachable step State.init state) :
    state.applied.Nodup ∧ ∀ eventId, eventId ∈ state.applied ↔ state.Processed eventId := by
  have hinv : Inv state := hreach.invariant Inv inv_init fun _ _ _ _ hinv _ => hinv.step
  exact ⟨hinv.tables.nodup, hinv.tables.applied⟩

end Marketplace.OrderPlacedConsumer
