import Marketplace.Messaging.Consumer
import Marketplace.Messaging.PgTransactions
import Marketplace.Outbox.Relay

/-!
# What the consumer and the relay do in a transaction

The programs of `applyOrderPlacedEffect` and `relayOnce`, statement by statement, with the error of
each passed on. The relay also waits for its publishes and for `afterPublish`; `false` is a
rejection.
-/

namespace Marketplace.PgStore

open OrderPlacedConsumer (consumerOrderPlaced)
open Relay (Envelope OutboxId RelayOptions)
open Session Transition

/-! ### `applyOrderPlacedEffect` -/

inductive EffectStatement where
  | insertProcessedMessage (messageId : Text) (consumer : String)
  | insertProcessedOrderEvent (eventId : Text) (orderId : OrderId)
  deriving DecidableEq

/-- The rows are those of the RETURNING. -/
def applyOrderPlacedEffect (event : OrderPlacedEvent) :
    Program EffectStatement (List Text) Unit Unit Bool :=
  .query (.insertProcessedMessage event.eventId consumerOrderPlaced) fun
    | none => .throw
    | some [] => .done false
    | some (_ :: _) =>
        .query (.insertProcessedOrderEvent event.eventId event.data.orderId) fun
          | none => .throw
          | some _ => .done true

theorem strict_applyOrderPlacedEffect (event : OrderPlacedEvent) :
    (applyOrderPlacedEffect event).Strict := by
  refine ⟨rfl, fun rows => ?_⟩
  cases rows with
  | nil => trivial
  | cons first rest => exact ⟨rfl, fun _ => trivial⟩

/-- The mark alone, if the message was processed before, and the mark with the effect else. -/
def effectTrace (event : OrderPlacedEvent) (marked : List Text) (written : List Text) :
    List (Event EffectStatement (List Text) Unit Unit) :=
  .query (.insertProcessedMessage event.eventId consumerOrderPlaced) marked ::
    if marked = [] then []
    else [.query (.insertProcessedOrderEvent event.eventId event.data.orderId) written]

theorem reaches_applyOrderPlacedEffect {event : OrderPlacedEvent} {applied : Bool}
    {trace : List (Event EffectStatement (List Text) Unit Unit)}
    (hreaches : (applyOrderPlacedEffect event).Reaches trace (.done applied)) :
    ∃ marked written, trace = effectTrace event marked written ∧ applied = !marked.isEmpty := by
  rcases hreaches.of_query with ⟨-, hsame⟩ | ⟨marked, rest, rfl, hrest⟩
  · cases hsame
  cases marked with
  | nil =>
      obtain ⟨rfl, hdone⟩ := hrest.of_done
      cases hdone
      exact ⟨[], [], rfl, rfl⟩
  | cons first others =>
      rcases hrest.of_query with ⟨-, hsame⟩ | ⟨written, last, rfl, hlast⟩
      · cases hsame
      obtain ⟨rfl, hdone⟩ := hlast.of_done
      cases hdone
      exact ⟨first :: others, written, rfl, rfl⟩

/-! ### `relayOnce` -/

inductive RelayStatement where
  | select (options : RelayOptions)
  | markSent (sentIds : List OutboxId)
  | countAttempt (failedId : OutboxId)
  deriving DecidableEq

inductive RelayRequest where
  /-- `sink.publish`, under its timeout. -/
  | publish (payload : OrderPlacedEvent) (type : String)
  | afterPublish (sentCount : Nat)
  deriving DecidableEq

abbrev RelayProgram : Type := Program RelayStatement (List Envelope) RelayRequest Bool (Nat × Nat)

abbrev RelayEvent : Type := Event RelayStatement (List Envelope) RelayRequest Bool

def markFailed (sentIds : List OutboxId) : Option OutboxId → RelayProgram
  | none => .done (sentIds.length, 0)
  | some failedId =>
      .query (.countAttempt failedId) fun
        | none => .throw
        | some _ => .done (sentIds.length, 1)

def markSent (sentIds : List OutboxId) (failedId : Option OutboxId) : RelayProgram :=
  if sentIds = [] then markFailed sentIds failedId
  else
    .query (.markSent sentIds) fun
      | none => .throw
      | some _ => markFailed sentIds failedId

def afterPublish (sentIds : List OutboxId) (failedId : Option OutboxId) : RelayProgram :=
  .await (.afterPublish sentIds.length) fun
    | true => markSent sentIds failedId
    | false => .throw

/-- The loop stops at the first row that is not confirmed. -/
def publishRows : List Envelope → List OutboxId → RelayProgram
  | [], sentIds => afterPublish sentIds none
  | row :: rest, sentIds =>
      .await (.publish row.payload row.type) fun
        | true => publishRows rest (sentIds ++ [row.id])
        | false => afterPublish sentIds (some row.id)

def relayOnce (options : RelayOptions) : RelayProgram :=
  .query (.select options) fun
    | none => .throw
    | some rows => publishRows rows []

theorem strict_markFailed (sentIds : List OutboxId) (failedId : Option OutboxId) :
    (markFailed sentIds failedId).Strict := by
  cases failedId with
  | none => trivial
  | some failedId => exact ⟨rfl, fun _ => trivial⟩

theorem strict_afterPublish (sentIds : List OutboxId) (failedId : Option OutboxId) :
    (afterPublish sentIds failedId).Strict := by
  intro returned
  cases returned with
  | false => trivial
  | true =>
      dsimp only
      unfold markSent
      split
      · exact strict_markFailed sentIds failedId
      · exact ⟨rfl, fun _ => strict_markFailed sentIds failedId⟩

theorem strict_publishRows (rows : List Envelope) (sentIds : List OutboxId) :
    (publishRows rows sentIds).Strict := by
  induction rows generalizing sentIds with
  | nil => exact strict_afterPublish sentIds none
  | cons row rest ih =>
      intro confirmed
      cases confirmed with
      | true => exact ih _
      | false => exact strict_afterPublish sentIds (some row.id)

theorem strict_relayOnce (options : RelayOptions) : (relayOnce options).Strict :=
  ⟨rfl, fun rows => strict_publishRows rows []⟩

/-- The confirmed rows, and the one that was not, if there is one, by how the publishes went. -/
inductive Published : List Envelope → List OutboxId → Option OutboxId → List RelayEvent → Prop
  | all : Published [] [] none []
  | failed (row : Envelope) (rest : List Envelope) :
      Published (row :: rest) [] (some row.id) [.await (.publish row.payload row.type) false]
  | sent (row : Envelope) (rest : List Envelope) (sentIds : List OutboxId)
      (failedId : Option OutboxId) (publishes : List RelayEvent)
      (hrest : Published rest sentIds failedId publishes) :
      Published (row :: rest) (row.id :: sentIds) failedId
        (.await (.publish row.payload row.type) true :: publishes)

/-- The UPDATEs of a pass. -/
def updates (sentIds : List OutboxId) (failedId : Option OutboxId) : List RelayStatement :=
  (if sentIds = [] then [] else [.markSent sentIds]) ++ (failedId.map .countAttempt).toList

/-- `RelayPass`. -/
def passResult (sentIds : List OutboxId) (failedId : Option OutboxId) : Nat × Nat :=
  (sentIds.length, if failedId.isSome then 1 else 0)

/-- The statements that the marks of a pass are, each answered. -/
structure Marks (sentIds : List OutboxId) (failedId : Option OutboxId) (marks : List RelayEvent) :
    Prop where
  statements : statements marks = updates sentIds failedId
  answered : ∀ event ∈ marks, event.statement ≠ none

section Traces

variable {sentIds : List OutboxId} {failedId : Option OutboxId} {result : Nat × Nat}
  {trace : List RelayEvent}

theorem reaches_markFailed (hreaches : (markFailed sentIds failedId).Reaches trace (.done result)) :
    result = passResult sentIds failedId ∧ statements trace = (failedId.map .countAttempt).toList ∧
      ∀ event ∈ trace, event.statement ≠ none := by
  cases failedId with
  | none =>
      obtain ⟨rfl, hdone⟩ := hreaches.of_done
      cases hdone
      exact ⟨rfl, rfl, nofun⟩
  | some failedId =>
      rcases hreaches.of_query with ⟨-, hsame⟩ | ⟨rows, rest, rfl, hrest⟩
      · cases hsame
      obtain ⟨rfl, hdone⟩ := hrest.of_done
      cases hdone
      exact ⟨rfl, rfl, by simp [Event.statement]⟩

theorem reaches_markSent (hreaches : (markSent sentIds failedId).Reaches trace (.done result)) :
    result = passResult sentIds failedId ∧ Marks sentIds failedId trace := by
  unfold markSent at hreaches
  split at hreaches
  · rename_i hnone
    obtain ⟨hresult, hstatements, hanswered⟩ := reaches_markFailed hreaches
    refine ⟨hresult, ?_, hanswered⟩
    rw [updates, if_pos hnone, List.nil_append, hstatements]
  · rename_i hsome
    rcases hreaches.of_query with ⟨-, hsame⟩ | ⟨rows, rest, rfl, hrest⟩
    · cases hsame
    obtain ⟨hresult, hstatements, hanswered⟩ := reaches_markFailed hrest
    refine ⟨hresult, ?_, ?_⟩
    · rw [updates, if_neg hsome, statements_cons_query, hstatements]
      rfl
    · intro event hevent
      rcases List.mem_cons.mp hevent with rfl | hevent
      · exact Option.some_ne_none _
      · exact hanswered event hevent

theorem reaches_afterPublish (hreaches :
      (afterPublish sentIds failedId).Reaches trace (.done result)) :
    ∃ marks, trace = .await (.afterPublish sentIds.length) true :: marks ∧
      result = passResult sentIds failedId ∧ Marks sentIds failedId marks := by
  rcases hreaches.of_await with ⟨-, hsame⟩ | ⟨returned, marks, rfl, hrest⟩
  · cases hsame
  cases returned with
  | true => exact ⟨marks, rfl, reaches_markSent hrest⟩
  | false => cases hrest.of_throw.2

/-- What the loop adds to the rows that were sent before it. -/
theorem reaches_publishRows {rows : List Envelope}
    (hreaches : (publishRows rows sentIds).Reaches trace (.done result)) :
    ∃ moreIds failedId publishes marks, Published rows moreIds failedId publishes ∧
      trace = publishes ++ .await (.afterPublish (sentIds ++ moreIds).length) true :: marks ∧
      result = passResult (sentIds ++ moreIds) failedId ∧
        Marks (sentIds ++ moreIds) failedId marks := by
  induction rows generalizing sentIds trace with
  | nil =>
      obtain ⟨marks, rfl, hresult, hmarks⟩ := reaches_afterPublish hreaches
      refine ⟨[], none, [], marks, .all, ?_, ?_, ?_⟩ <;> rw [List.append_nil]
      · rfl
      · exact hresult
      · exact hmarks
  | cons row others ih =>
      rcases hreaches.of_await with ⟨-, hsame⟩ | ⟨confirmed, last, rfl, hlast⟩
      · cases hsame
      cases confirmed with
      | true =>
          obtain ⟨moreIds, failedId, publishes, marks, hpublished, rfl, hresult, hmarks⟩ := ih hlast
          rw [List.append_assoc] at hresult hmarks ⊢
          exact ⟨row.id :: moreIds, failedId, _, marks, .sent row others _ _ _ hpublished,
            rfl, hresult, hmarks⟩
      | false =>
          obtain ⟨marks, rfl, hresult, hmarks⟩ := reaches_afterPublish hlast
          refine ⟨[], some row.id, _, marks, .failed row others, ?_, ?_, ?_⟩ <;>
            rw [List.append_nil]
          · rfl
          · exact hresult
          · exact hmarks

theorem reaches_relayOnce {options : RelayOptions}
    (hreaches : (relayOnce options).Reaches trace (.done result)) :
    ∃ rows sentIds failedId publishes marks, Published rows sentIds failedId publishes ∧
      trace = .query (.select options) rows ::
        (publishes ++ .await (.afterPublish sentIds.length) true :: marks) ∧
      result = passResult sentIds failedId ∧ Marks sentIds failedId marks := by
  rcases hreaches.of_query with ⟨-, hsame⟩ | ⟨rows, last, rfl, hlast⟩
  · cases hsame
  obtain ⟨sentIds, failedId, publishes, marks, hpublished, rfl, hresult, hmarks⟩ :=
    reaches_publishRows hlast
  exact ⟨rows, sentIds, failedId, publishes, marks, hpublished, rfl, hresult, hmarks⟩

theorem Published.statements_eq {rows : List Envelope} {publishes : List RelayEvent}
    (hpublished : Published rows sentIds failedId publishes) : statements publishes = [] := by
  induction hpublished with
  | all => rfl
  | failed row rest => rfl
  | sent row rest sentIds failedId publishes _ ih => rw [statements_cons_await, ih]

end Traces

/-! ### In the database -/

/-- A call of `applyOrderPlacedEffect` that resolved has committed the mark together with the
effect, or the mark alone where it was there already. -/
theorem effect_committed {max : Nat} {state : State EffectStatement (List Text) Unit Unit Bool}
    (hreach : Reachable (step max) State.init state) {call : Call} {event : OrderPlacedEvent}
    {applied : Bool} (htask : state.tasks call = some (.transaction (applyOrderPlacedEffect event)))
    (hphase : state.calls call = .resolved applied) :
    (call, tagged call (.insertProcessedMessage event.eventId consumerOrderPlaced ::
      if applied then [.insertProcessedOrderEvent event.eventId event.data.orderId] else [])) ∈
      state.committed := by
  obtain ⟨hreaches, hcommitted⟩ :=
    (inv_reach hreach).resolved htask hphase (strict_applyOrderPlacedEffect event)
  obtain ⟨marked, written, htrace, rfl⟩ := reaches_applyOrderPlacedEffect hreaches
  rw [htrace] at hcommitted
  cases marked <;> exact hcommitted

/-- A pass that resolved heard the rows of its SELECT, then how the publish of each went until one
was not confirmed, then the answers to its marks; committed are, together with the SELECT, the marks
of exactly the rows whose publish was confirmed, and the attempt of the one that was not. -/
theorem pass_committed {max : Nat}
    {state : State RelayStatement (List Envelope) RelayRequest Bool (Nat × Nat)}
    (hreach : Reachable (step max) State.init state) {call : Call} {options : RelayOptions}
    {result : Nat × Nat} (htask : state.tasks call = some (.transaction (relayOnce options)))
    (hphase : state.calls call = .resolved result) :
    ∃ rows sentIds failedId publishes marks, Published rows sentIds failedId publishes ∧
      Marks sentIds failedId marks ∧
      state.heard call = .query (.select options) rows ::
        (publishes ++ .await (.afterPublish sentIds.length) true :: marks) ∧
      result = passResult sentIds failedId ∧
      (call, tagged call (.select options :: updates sentIds failedId)) ∈ state.committed := by
  obtain ⟨hreaches, hcommitted⟩ :=
    (inv_reach hreach).resolved htask hphase (strict_relayOnce options)
  obtain ⟨rows, sentIds, failedId, publishes, marks, hpublished, hheard, hresult, hmarks⟩ :=
    reaches_relayOnce hreaches
  have hstatements : statements (state.heard call) = .select options ::
      updates sentIds failedId := by
    rw [hheard, statements_cons_query, statements_append, hpublished.statements_eq,
      statements_cons_await, hmarks.statements, List.nil_append]
  rw [hstatements] at hcommitted
  exact ⟨rows, sentIds, failedId, publishes, marks, hpublished, hmarks, hheard, hresult, hcommitted⟩

def placed (orderId : OrderId) : OrderPlacedEvent :=
  buildOrderPlacedEvent ⟨orderId, "ada@example.com", 200, "UAH", []⟩ 0

def relayOptions : RelayOptions := ⟨100, .skipLocked, none⟩

/-- Of three rows the first is confirmed, the second is not, and the third is left to the next
pass. -/
def relayPass : List (Action RelayStatement (List Envelope) RelayRequest Bool (Nat × Nat)) :=
  [.begin 1 (.transaction (relayOnce relayOptions)), .connect 1 0, .execute 1 false [] false,
    .execute 1 false [⟨4, "order.placed", placed 1⟩, ⟨5, "order.placed", placed 2⟩,
      ⟨6, "order.placed", placed 3⟩] false,
    .await 1 true, .await 1 false, .await 1 true, .execute 1 false [] false,
    .execute 1 false [] false,
    .execute 1 false [] false]

theorem pass_committed_partial :
    ∃ state : State RelayStatement (List Envelope) RelayRequest Bool (Nat × Nat),
      Reachable (step 5) State.init state ∧ state.calls 1 = .resolved (1, 1) ∧
      (1, [(1, .select relayOptions), (1, .markSent [4]), (1, .countAttempt 5)]) ∈ state.committed ∧
      ∃ sentIds failedId, (1, 1) = passResult sentIds failedId ∧
        (1, tagged 1 (.select relayOptions :: updates sentIds failedId)) ∈ state.committed := by
  obtain ⟨state, hrun⟩ :
      ∃ state : State RelayStatement (List Envelope) RelayRequest Bool (Nat × Nat),
      runWithin (step 5) Free State.init relayPass = some state := ⟨_, rfl⟩
  have hphase : (runWithin (step 5) Free State.init relayPass).map (fun state => state.calls 1) =
      some (.resolved (1, 1)) := rfl
  have htask : (runWithin (step 5) Free State.init relayPass).map (fun state => state.tasks 1) =
      some (some (.transaction (relayOnce relayOptions))) := rfl
  have hcommitted : (runWithin (step 5) Free State.init relayPass).map State.committed =
      some [(1, [(1, .select relayOptions), (1, .markSent [4]), (1, .countAttempt 5)])] := rfl
  rw [hrun, Option.map_some, Option.some.injEq] at hphase htask hcommitted
  have hreach := reach_of_runWithin hrun
  obtain ⟨_, sentIds, failedId, _, _, -, -, -, hresult, hmem⟩ := pass_committed hreach htask hphase
  exact ⟨state, hreach, hphase, by
    rw [hcommitted]; exact List.mem_singleton_self _, sentIds, failedId,
    hresult, hmem⟩

end Marketplace.PgStore
