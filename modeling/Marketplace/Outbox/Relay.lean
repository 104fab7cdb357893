import Mathlib.Data.List.Sort
import Marketplace.Lib.ReadCommitted
import Marketplace.Lib.Transition
import Marketplace.Outbox.Outbox

/-!
# `relayOnce`, statement by statement

A pass selects and locks a batch, hands its rows to the sink one after the other, marks those that
were confirmed and commits. The locking SELECT fixes its candidates in its snapshot and then locks
them in order, until it has a full batch; a row that was published in the meantime is dropped.
-/

namespace Marketplace.Relay

open ReadCommitted Transition

/-- A uuid, as a number. -/
abbrev OutboxId := Nat

inductive LockMode where
  | skipLocked
  | forUpdate
  | none
  deriving DecidableEq

structure RelayOptions where
  batchSize : Nat
  lockMode : LockMode
  notBefore : Option Nat
  deriving DecidableEq

/-- A row of the SELECT. -/
structure Envelope where
  id : OutboxId
  type : String
  payload : OrderPlacedEvent
  deriving DecidableEq

/-- How an awaited `sink.publish` ends. After a timeout the publish itself goes on. -/
inductive Outcome where
  | confirmed
  | refused
  | timedOut
  deriving DecidableEq

/-- The variables of a pass, and the `now()` of its transaction. -/
structure Pass where
  options : RelayOptions
  now : Nat
  rows : List Envelope
  sentIds : List OutboxId
  failedId : Option OutboxId
  deriving DecidableEq

inductive Phase where
  | idle
  | began (pass : Pass)
  /-- The SELECT has its snapshot; the candidates are locked one by one. -/
  | locking (pass : Pass) (candidates : List (OutboxId × OutboxRow))
  | publishing (pass : Pass) (rest : List Envelope)
  | awaiting (pass : Pass) (row : Envelope) (rest : List Envelope)
  /-- The loop is over; the hook runs. -/
  | published (pass : Pass)
  /-- The UPDATE of the rows that were sent, `rest` still to be visited. -/
  | marking (pass : Pass) (rest : List OutboxId)
  | markingFailed (pass : Pass) (failedId : OutboxId)
  | committing (pass : Pass)
  | returned (pass : Pass)
  | threw
  | crashed
  deriving DecidableEq

namespace Phase

def isOpen : Phase → Bool
  | idle | returned _ | threw | crashed => false
  | _ => true

def isReturned : Phase → Bool
  | returned _ => true
  | _ => false

def pass : Phase → Option Pass
  | idle | threw | crashed => none
  | began pass | locking pass _ | publishing pass _ | awaiting pass _ _ | published pass
  | marking pass _ | markingFailed pass _ | committing pass | returned pass => some pass

/-- The ids of the rows that the pass has locked for itself. -/
def batch (phase : Phase) : List OutboxId :=
  (phase.pass.map fun pass => pass.rows.map Envelope.id).getD []

def sentIds (phase : Phase) : List OutboxId := (phase.pass.map Pass.sentIds).getD []

end Phase

/-- `RelayPass`. -/
def Pass.result (pass : Pass) : Nat × Nat :=
  (pass.sentIds.length, if pass.failedId.isSome then 1 else 0)

structure State where
  outbox : Table Call OutboxId OutboxRow
  passes : Call → Phase
  /-- The rows whose publish was confirmed, with the pass that was told so. -/
  confirmed : List (Call × OutboxId)

inductive Action where
  | relayOnce (call : Call) (options : RelayOptions) (now : Nat)
  | select (call : Call)
  | lock (call : Call)
  | endSelect (call : Call)
  | publish (call : Call)
  | settle (call : Call) (outcome : Outcome)
  | endLoop (call : Call)
  | afterPublish (call : Call)
  | mark (call : Call)
  | markFailed (call : Call)
  | commit (call : Call)
  /-- A statement or the hook throws. -/
  | abort (call : Call)
  /-- The process dies. -/
  | crash (call : Call)
  /-- Some other transaction commits a new row. -/
  | enqueue (call : Call) (id : OutboxId) (data : OrderPlacedData) (occurredAt now : Nat)

def Action.caller : Action → Call
  | relayOnce call _ _ | select call | lock call | endSelect call | publish call | settle call _
  | endLoop call | afterPublish call | mark call | markFailed call | commit call | abort call
  | crash call | enqueue call _ _ _ _ => call

/-- The WHERE of the SELECT. -/
def RelayOptions.wanted (options : RelayOptions) (row : OutboxRow) : Bool :=
  row.publishedAt.isNone && options.notBefore.all fun notBefore => notBefore ≤ row.createdAt

/-- `ORDER BY created_at, id`. -/
def rowLe (left right : OutboxId × OutboxRow) : Prop :=
  left.2.createdAt < right.2.createdAt ∨
    left.2.createdAt = right.2.createdAt ∧ left.1 ≤ right.1

instance : DecidableRel rowLe := fun left right => by
  unfold rowLe
  infer_instance

def envelope (id : OutboxId) (row : OutboxRow) : Envelope := ⟨id, row.type, row.payload⟩

def markSent (now : Nat) (row : OutboxRow) : OutboxRow :=
  { row with publishedAt := some now, attempts := row.attempts + 1 }

def countAttempt (row : OutboxRow) : OutboxRow := { row with attempts := row.attempts + 1 }

section Statements

variable (state : State) (call : Call)

def State.init (outbox : Table Call OutboxId OutboxRow) : State where
  outbox := outbox
  passes := fun _ => .idle
  confirmed := []

def State.goto (phase : Phase) : State :=
  { state with passes := Function.update state.passes call phase }

def relayOnce (options : RelayOptions) (now : Nat) : Option State :=
  match state.passes call with
  | .idle => some (state.goto call (.began ⟨options, now, [], [], none⟩))
  | _ => none

/-- The snapshot of the SELECT. Without a lock clause it is also its result. -/
def select : Option State :=
  match state.passes call with
  | .began pass =>
      let ids := state.outbox.scan call fun _ row => pass.options.wanted row
      let candidates := (ids.filterMap fun id =>
        (state.outbox.view call id).map fun row => (id, row)).insertionSort rowLe
      match pass.options.lockMode with
      | .none =>
          let rows := (candidates.take pass.options.batchSize).map fun row => envelope row.1 row.2
          some (state.goto call (.publishing { pass with rows := rows } rows))
      | _ => some (state.goto call (.locking pass candidates))
  | _ => none

/-- Lock the next candidate: skip it or wait if another transaction has it, and look at the version
that is current once the lock is there. -/
def lock : Option State :=
  match state.passes call with
  | .locking pass ((id, _) :: candidates) =>
      if pass.rows.length < pass.options.batchSize then
        match state.outbox.visit call id pass.options.wanted fun row => row with
        | some (outbox, true) =>
            match outbox.view call id with
            | some row =>
                some { (state.goto call (.locking
                    { pass with rows := pass.rows ++ [envelope id row] } candidates)) with
                  outbox := outbox }
            | none => none
        | some (outbox, false) =>
            some { (state.goto call (.locking pass candidates)) with outbox := outbox }
        | none =>
            if pass.options.lockMode = .skipLocked then
              some (state.goto call (.locking pass candidates))
            else none
      else none
  | _ => none

def endSelect : Option State :=
  match state.passes call with
  | .locking pass candidates =>
      if candidates = [] ∨ pass.options.batchSize ≤ pass.rows.length then
        some (state.goto call (.publishing pass pass.rows))
      else none
  | _ => none

/-- `sink.publish(row.payload, row.type)` is called. -/
def publish : Option State :=
  match state.passes call with
  | .publishing pass (row :: rest) => some (state.goto call (.awaiting pass row rest))
  | _ => none

def settle (outcome : Outcome) : Option State :=
  match state.passes call with
  | .awaiting pass row rest =>
      match outcome with
      | .confirmed =>
          some { (state.goto call
              (.publishing { pass with sentIds := pass.sentIds ++ [row.id] } rest)) with
            confirmed := state.confirmed ++ [(call, row.id)] }
      | _ => some (state.goto call (.published { pass with failedId := some row.id }))
  | _ => none

def endLoop : Option State :=
  match state.passes call with
  | .publishing pass [] => some (state.goto call (.published pass))
  | _ => none

def afterPublish : Option State :=
  match state.passes call with
  | .published pass => some (state.goto call (.marking pass pass.sentIds))
  | _ => none

/-- `UPDATE outbox SET published_at = now(), attempts = attempts + 1 WHERE id = ANY($1)`. -/
def mark : Option State :=
  match state.passes call with
  | .marking pass (id :: rest) =>
      match state.outbox.visit call id (fun _ => true) (markSent pass.now) with
      | some (outbox, _) => some { (state.goto call (.marking pass rest)) with outbox := outbox }
      | none => none
  | .marking pass [] =>
      match pass.failedId with
      | some failedId => some (state.goto call (.markingFailed pass failedId))
      | none => some (state.goto call (.committing pass))
  | _ => none

/-- `UPDATE outbox SET attempts = attempts + 1 WHERE id = $1`. -/
def markFailed : Option State :=
  match state.passes call with
  | .markingFailed pass failedId =>
      match state.outbox.visit call failedId (fun _ => true) countAttempt with
      | some (outbox, _) => some { (state.goto call (.committing pass)) with outbox := outbox }
      | none => none
  | _ => none

def commit : Option State :=
  match state.passes call with
  | .committing pass =>
      some { (state.goto call (.returned pass)) with outbox := state.outbox.commit call }
  | _ => none

/-- The transaction of the pass is rolled back, by the code or because its connection is gone. -/
def rollback (phase : Phase) : Option State :=
  if (state.passes call).isOpen then
    some { (state.goto call phase) with outbox := state.outbox.rollback call }
  else none

def enqueue (id : OutboxId) (data : OrderPlacedData) (occurredAt now : Nat) : Option State :=
  if state.passes call = .idle ∧ state.outbox.committed id = none ∧
      state.outbox.insertOutcome call id = .inserted then
    some { state with
      outbox :=
        (state.outbox.put call id (some (enqueueOrderPlaced data occurredAt now))).commit call }
  else none

end Statements

def step (state : State) : Action → Option State
  | .relayOnce call options now => relayOnce state call options now
  | .select call => select state call
  | .lock call => lock state call
  | .endSelect call => endSelect state call
  | .publish call => publish state call
  | .settle call outcome => settle state call outcome
  | .endLoop call => endLoop state call
  | .afterPublish call => afterPublish state call
  | .mark call => mark state call
  | .markFailed call => markFailed state call
  | .commit call => commit state call
  | .abort call => rollback state call .threw
  | .crash call => rollback state call .crashed
  | .enqueue call id data occurredAt now => enqueue state call id data occurredAt now

end Marketplace.Relay
