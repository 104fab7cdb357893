import Marketplace.Basic
import Marketplace.Lib.Session
import Marketplace.Lib.Transition
import Mathlib.Data.List.Nodup

/-!
# `pgStore`: transactions on a pool of connections

`transaction` takes one connection for the whole of BEGIN … COMMIT, and `query` takes any one for a
statement; `relayOnce` is written out the same way. Calls of both kinds run side by side, statements
fail, and connections break, also between the end of a command and its answer.
-/

namespace Marketplace.PgStore

open Session Transition

abbrev ConnectionId := Nat

section Model

variable (Statement Rows Request Outcome Result : Type)

/-- What a call is for. -/
inductive Task where
  | transaction (fn : Program Statement Rows Request Outcome Result)
  | query (statement : Statement)

inductive Phase where
  | idle
  /-- It waits for `pool.connect()`. -/
  | waiting
  /-- BEGIN, or the one statement of `query`, is sent. -/
  | connected (connection : ConnectionId)
  /-- `fn` is at work; after `done` there is COMMIT, and after `throw` ROLLBACK. -/
  | running (connection : ConnectionId) (program : Program Statement Rows Request Outcome Result)
  | resolved (result : Result)
  | answered (rows : Rows)
  | rejected

/-- `held` has the connections that are out of the pool. The rest is history: what the calls are
for, what their `fn` was answered, which statements were committed by whom, and which COMMITs had no
answer. A connection is new before it is used. -/
structure State where
  sessions : ConnectionId → Status (Call × Statement)
  held : List (ConnectionId × Call)
  calls : Call → Phase Statement Rows Request Outcome Result
  tasks : Call → Option (Task Statement Rows Request Outcome Result)
  heard : Call → List (Event Statement Rows Request Outcome)
  committed : List (Call × List (Call × Statement))
  unanswered : List Call

inductive Action where
  | begin (call : Call) (task : Task Statement Rows Request Outcome Result)
  | connect (call : Call) (connection : ConnectionId)
  | connectFails (call : Call)
  /-- The command is executed, and its answer gets lost with the connection, or not. -/
  | execute (call : Call) (fails : Bool) (rows : Rows) (lost : Bool)
  | await (call : Call) (outcome : Outcome)
  /-- The connection breaks. -/
  | die (connection : ConnectionId)

end Model

variable {Statement Rows Request Outcome Result : Type}

def Phase.connection : Phase Statement Rows Request Outcome Result → Option ConnectionId
  | .connected connection | .running connection _ => some connection
  | .idle | .waiting | .resolved _ | .answered _ | .rejected => none

section Steps

variable (state : State Statement Rows Request Outcome Result)

def State.init : State Statement Rows Request Outcome Result where
  sessions := fun _ => .idle
  held := []
  calls := fun _ => .idle
  tasks := fun _ => none
  heard := fun _ => []
  committed := []
  unanswered := []

def State.goto (call : Call) (phase : Phase Statement Rows Request Outcome Result) :
    State Statement Rows Request Outcome Result :=
  { state with calls := Function.update state.calls call phase }

/-- The `fn` of the call gets something back. -/
def State.hear (call : Call) (event : Event Statement Rows Request Outcome) :
    State Statement Rows Request Outcome Result :=
  { state with heard := Function.update state.heard call (state.heard call ++ [event]) }

/-- `client.release()`. -/
def State.release (call : Call) : State Statement Rows Request Outcome Result :=
  { state with held := state.held.filter fun entry => entry.2 ≠ call }

/-- A command runs on the connection of the call; the client is told whether it succeeded. -/
def State.send (call : Call) (connection : ConnectionId) (command : Command (Call × Statement))
    (fails lost : Bool) : State Statement Rows Request Outcome Result × Bool :=
  let effect := (state.sessions connection).execute fails command
  ({ state with
      sessions := Function.update state.sessions connection (if lost then .dead else effect.status)
      committed := state.committed ++ (effect.committed.map fun batch => (call, batch)).toList
      unanswered := if lost && effect.committed.isSome then call :: state.unanswered
        else state.unanswered },
    effect.succeeds && !lost)

variable (max : Nat) (call : Call)

def begin (task : Task Statement Rows Request Outcome Result) :
    Option (State Statement Rows Request Outcome Result) :=
  match state.calls call with
  | .idle =>
      some { (state.goto call .waiting) with
        tasks := Function.update state.tasks call (some task) }
  | _ => none

def connect (connection : ConnectionId) : Option (State Statement Rows Request Outcome Result) :=
  match state.calls call with
  | .waiting =>
      if state.held.length < max ∧ connection ∉ state.held.map Prod.fst then
        some { (state.goto call (.connected connection)) with held :=
          (connection, call) :: state.held }
      else none
  | _ => none

def connectFails : Option (State Statement Rows Request Outcome Result) :=
  match state.calls call with
  | .waiting => some (state.goto call .rejected)
  | _ => none

/-- The `catch` and the `finally` of `transaction` are ROLLBACK, whose error is dropped, and the
release. -/
def execute (fails : Bool) (rows : Rows) (lost : Bool) :
    Option (State Statement Rows Request Outcome Result) :=
  match state.calls call, state.tasks call with
  | .connected connection, some (.transaction fn) =>
      let (next, ok) := state.send call connection .begin fails lost
      some (next.goto call (.running connection (if ok then fn else .throw)))
  | .connected connection, some (.query statement) =>
      let (next, ok) := state.send call connection (.statement (call, statement)) fails lost
      some ((next.release call).goto call (if ok then .answered rows else .rejected))
  | .running connection (.query statement following), _ =>
      let (next, ok) := state.send call connection (.statement (call, statement)) fails lost
      if ok then
        some ((next.hear call (.query statement rows)).goto call
          (.running connection (following (some rows))))
      else some (next.goto call (.running connection (following none)))
  | .running connection (.done result), _ =>
      let (next, ok) := state.send call connection .commit fails lost
      if ok then some ((next.release call).goto call (.resolved result))
      else some (next.goto call (.running connection .throw))
  | .running connection .throw, _ =>
      let (next, _) := state.send call connection .rollback fails lost
      some ((next.release call).goto call .rejected)
  | _, _ => none

def await (outcome : Outcome) : Option (State Statement Rows Request Outcome Result) :=
  match state.calls call with
  | .running connection (.await request following) =>
      some ((state.hear call (.await request outcome)).goto call
        (.running connection (following outcome)))
  | _ => none

def die (connection : ConnectionId) : State Statement Rows Request Outcome Result :=
  { state with sessions := Function.update state.sessions connection .dead }

end Steps

def step (max : Nat) (state : State Statement Rows Request Outcome Result) :
    Action Statement Rows Request Outcome Result →
      Option (State Statement Rows Request Outcome Result)
  | .begin call task => begin state call task
  | .connect call connection => connect state max call connection
  | .connectFails call => connectFails state call
  | .execute call fails rows lost => execute state call fails rows lost
  | .await call outcome => await state call outcome
  | .die connection => some (die state connection)

end Marketplace.PgStore
