import Marketplace.Cards.ProductCardService
import Marketplace.Lib.Expiring

/-!
# Product cards on one Redis

Any number of calls of `getCard`, from any number of instances. A request is executed at some time
after it is made, and its answer arrives at some time after that, or not at all: a call that sees an
error does not know whether its command will still be executed.
-/

namespace Marketplace.Cards

open Expiring.Store
open Shop (ProductCard cardKey)

abbrev Item := Expiring.Item Text

abbrev Redis := Expiring.Store Text Text

namespace Redis

variable (redis : Redis) (now : Nat)

/-- `SET … NX`, and whether it answers `OK`. -/
def setNx (name token : Text) (ttlMs : Nat) : Redis × Bool :=
  if (redis.read now name).isSome then (redis, false) else (redis.set now name token ttlMs, true)

/-- `RELEASE_LUA`. -/
def release (name token : Text) : Redis :=
  if redis.read now name = some token then Function.update redis name none else redis

/-- What Redis does on a request, and what it answers. -/
def execute : Request → Redis × Answer
  | .get key => (redis, .text (some (redis.read now key)))
  | .setNx name token ttlMs =>
      ((setNx redis now name token ttlMs).1, .locked (some (setNx redis now name token ttlMs).2))
  | .set key raw ttlSec => (redis.set now key raw (seconds ttlSec), .done)
  | .release name token => (release redis now name token, .done)
  | .now => (redis, .time now)
  | .sleep _ | .loadCard _ => (redis, .done)

end Redis

structure Caller where
  productId : ProductId
  options : ProductCardOptions
  startedAt : Nat
  phase : Phase
  /-- The answer to the request of this phase, once there is one. -/
  reply : Option Answer
  /-- When `loadCard` took its snapshot. -/
  snapshotAt : Nat
  deriving DecidableEq

def Caller.request (caller : Caller) : Option Request := caller.phase.request caller.productId

/-- A call that is over. -/
structure Return where
  productId : ProductId
  startedAt : Nat
  returnedAt : Nat
  outcome : Outcome
  deriving DecidableEq

structure State (Db : Type) where
  clock : Nat
  db : Db
  redis : Redis
  callers : Call → Option Caller
  /-- The calls so far. -/
  started : List Call
  /-- Commands whose callers have given up, with the time of the snapshot that they write. -/
  late : List (Request × Nat)
  /-- The tokens drawn so far. -/
  tokens : List Token
  /-- The queries of `loadCard`, with their results. -/
  loads : List (ProductId × Option (Option ProductCard))
  returns : List Return
  /-- The states that the database has been in, with the times at which it was. -/
  visited : List (Nat × Db)

inductive Action (Db : Type) where
  | tick (ms : Nat)
  /-- Some transaction commits. -/
  | commit (db : Db)
  | getCard (call : Call) (productId : ProductId) (options : ProductCardOptions)
  | execute (call : Call)
  /-- The call gets an error instead of its answer. -/
  | fail (call : Call)
  | resume (call : Call) (draws : Draws)
  /-- A command is executed after its call has given it up. -/
  | late (index : Nat)
  /-- `invalidate`, or an eviction. -/
  | del (key : Text)

section Steps

variable {Db : Type} (loadCard : Db → ProductId → Option (Option ProductCard)) (state : State Db)

def State.init (db : Db) : State Db where
  clock := 0
  db := db
  redis := fun _ => none
  callers := fun _ => none
  started := []
  late := []
  tokens := []
  loads := []
  returns := []
  visited := [(0, db)]

def State.put (call : Call) (caller : Caller) : State Db :=
  { state with callers := Function.update state.callers call (some caller) }

def getCard (call : Call) (productId : ProductId) (options : ProductCardOptions) :
    Option (State Db) :=
  match state.callers call with
  | none =>
      some { state.put call ⟨productId, options, state.clock, start options, none, 0⟩ with
        started := state.started ++ [call] }
  | some _ => none

/-- A query sees the database as it is when it is executed. -/
def execute (call : Call) : Option (State Db) :=
  match state.callers call with
  | some caller =>
      match caller.reply, caller.request with
      | none, some (.loadCard productId) =>
          let card := loadCard state.db productId
          some { state.put call { caller with reply := some (.card card), snapshotAt :=
            state.clock } with
            loads := state.loads ++ [(productId, card)] }
      | none, some request =>
          let (redis, answer) := state.redis.execute state.clock request
          some { state.put call { caller with reply := some answer } with redis := redis }
      | _, _ => none
  | none => none

/-- What the caller gets for a command or a query that fails. -/
def failure : Request → Option Answer
  | .get _ => some (.text none)
  | .setNx _ _ _ => some (.locked none)
  | .loadCard _ => some (.card none)
  | .set _ _ _ | .release _ _ => some .done
  | .now | .sleep _ => none

def fail (call : Call) : Option (State Db) :=
  match state.callers call with
  | some caller =>
      match caller.request with
      | some request =>
          (failure request).map fun answer =>
            { state.put call { caller with reply := some answer } with
              late := state.late ++ if caller.reply =
                none then [(request, caller.snapshotAt)] else [] }
      | none => none
  | none => none

/-- The token that the call has just drawn. -/
def drawn : Phase → List Token
  | .acquiring _ token => [token]
  | _ => []

def ended (caller : Caller) (now : Nat) : Phase → List Return
  | .finished outcome => [⟨caller.productId, caller.startedAt, now, outcome⟩]
  | _ => []

def resumeCall (call : Call) (draws : Draws) : Option (State Db) :=
  match state.callers call with
  | some caller =>
      match caller.reply with
      | some answer =>
          (resume caller.options draws caller.phase answer).map fun next =>
            { state.put call { caller with phase := next, reply := none } with
              tokens := state.tokens ++ drawn next
              returns := state.returns ++ ended caller state.clock next }
      | none => none
  | none => none

def late (index : Nat) : Option (State Db) :=
  (state.late[index]?).map fun command =>
    { state with
      redis := (state.redis.execute state.clock command.1).1
      late := state.late.eraseIdx index }

def step : Action Db → Option (State Db)
  | .tick ms =>
      some { state with
        clock := state.clock + ms
        visited := state.visited ++ [(state.clock + ms, state.db)] }
  | .commit db => some { state with db := db, visited := state.visited ++ [(state.clock, db)] }
  | .getCard call productId options => getCard state call productId options
  | .execute call => execute loadCard state call
  | .fail call => fail state call
  | .resume call draws => resumeCall state call draws
  | .late index => late state index
  | .del key => some { state with redis := Function.update state.redis key none }

end Steps

/-! ### What each step does -/

variable {Db : Type} {loadCard : Db → ProductId → Option (Option ProductCard)}
  {before after : State Db} {call : Call}

theorem getCard_spec {productId : ProductId} {options : ProductCardOptions}
    (hstep : getCard before call productId options = some after) :
    before.callers call = none ∧
      after = { before.put call ⟨productId, options, before.clock, start options, none, 0⟩ with
        started := before.started ++ [call] } := by
  unfold getCard at hstep
  split at hstep
  · rename_i hnone
    cases hstep
    exact ⟨hnone, rfl⟩
  · cases hstep

/-- A request is executed: a query of the database, or anything else. -/
theorem execute_spec (hstep : execute loadCard before call = some after) :
    ∃ caller, before.callers call = some caller ∧ caller.reply = none ∧
      ((∃ productId, caller.request = some (.loadCard productId) ∧
        after = { before.put call { caller with
            reply := some (.card (loadCard before.db productId)), snapshotAt := before.clock } with
          loads := before.loads ++ [(productId, loadCard before.db productId)] }) ∨
      ∃ request, caller.request = some request ∧ (∀ productId, request ≠ .loadCard productId) ∧
        after = { before.put call { caller with
            reply := some (before.redis.execute before.clock request).2 } with
          redis := (before.redis.execute before.clock request).1 }) := by
  unfold execute at hstep
  split at hstep
  case h_2 => cases hstep
  rename_i caller hcaller
  refine ⟨caller, hcaller, ?_⟩
  split at hstep
  · rename_i productId hreply hrequest
    cases hstep
    exact ⟨hreply, .inl ⟨productId, hrequest, rfl⟩⟩
  · rename_i request hother hreply hrequest
    cases hstep
    exact ⟨hreply, .inr ⟨request, hrequest, fun productId heq => hother productId (heq ▸ rfl), rfl⟩⟩
  · cases hstep

theorem fail_spec (hstep : fail before call = some after) :
    ∃ caller request answer, before.callers call = some caller ∧ caller.request = some request ∧
      failure request = some answer ∧
      after = { before.put call { caller with reply := some answer } with
        late := before.late ++ if caller.reply =
          none then [(request, caller.snapshotAt)] else [] } := by
  unfold fail at hstep
  split at hstep
  case h_2 => cases hstep
  rename_i caller hcaller
  split at hstep
  case h_2 => cases hstep
  rename_i request hrequest
  obtain ⟨answer, hanswer, rfl⟩ := Option.map_eq_some_iff.mp hstep
  exact ⟨caller, request, answer, hcaller, hrequest, hanswer, rfl⟩

theorem resumeCall_spec {draws : Draws} (hstep : resumeCall before call draws = some after) :
    ∃ caller answer next, before.callers call = some caller ∧ caller.reply = some answer ∧
      Resumes caller.options draws caller.phase answer next ∧
      after = { before.put call { caller with phase := next, reply := none } with
        tokens := before.tokens ++ drawn next
        returns := before.returns ++ ended caller before.clock next } := by
  unfold resumeCall at hstep
  split at hstep
  case h_2 => cases hstep
  rename_i caller hcaller
  split at hstep
  case h_2 => cases hstep
  rename_i answer hanswer
  obtain ⟨next, hnext, rfl⟩ := Option.map_eq_some_iff.mp hstep
  exact ⟨caller, answer, next, hcaller, hanswer, resumes_of_resume hnext, rfl⟩

theorem late_spec {index : Nat} (hstep : late before index = some after) :
    ∃ command ∈ before.late, before.late[index]? = some command ∧
      after = { before with
        redis := (before.redis.execute before.clock command.1).1
        late := before.late.eraseIdx index } := by
  obtain ⟨command, hcommand, rfl⟩ := Option.map_eq_some_iff.mp hstep
  exact ⟨command, List.mem_of_getElem? hcommand, hcommand, rfl⟩

/-- What holds of the changed call and of the others holds of all. -/
theorem State.forall_put {good : Call → Caller → Prop} {caller : Caller}
    (hcaller : good call caller)
    (hothers : ∀ other found, other ≠ call → before.callers other = some found → good other found) :
    ∀ other found, (before.put call caller).callers other = some found → good other found := by
  intro other found hfound
  have hfound : Function.update before.callers call (some caller) other = some found := hfound
  by_cases heq : other = call
  · rw [heq, Function.update_self] at hfound
    cases hfound
    exact heq ▸ hcaller
  · rw [Function.update_of_ne heq] at hfound
    exact hothers other found heq hfound

theorem State.callers_put_ne_none {caller : Caller} {other : Call}
    (hcaller : before.callers other ≠ none) :
    (before.put call caller).callers other ≠ none := by
  change Function.update before.callers call (some caller) other ≠ none
  by_cases heq : other = call
  · simp [heq]
  · rwa [Function.update_of_ne heq]

/-- Where a key comes from. -/
theorem execute_cases {redis : Redis} {now : Nat} {request : Request} {key : Text} {item : Item}
    (hitem : (redis.execute now request).1 key = some item) :
    redis key = some item ∨
      (∃ raw ttlSec, request = .set key raw ttlSec ∧ item = ⟨raw, now + seconds ttlSec⟩) ∨
      ∃ token ttlMs, request = .setNx key token ttlMs ∧ item = ⟨token, now + ttlMs⟩ := by
  have hset : ∀ {changed raw : Text} {ttlMs : Nat}, redis.set now changed raw ttlMs key =
      some item →
      redis key = some item ∨ changed = key ∧ item = ⟨raw, now + ttlMs⟩ := by
    intro changed raw ttlMs hitem
    unfold Expiring.Store.set at hitem
    by_cases heq : key = changed
    · subst heq
      rw [Function.update_self] at hitem
      exact .inr ⟨rfl, (Option.some.inj hitem).symm⟩
    · rw [Function.update_of_ne heq] at hitem
      exact .inl hitem
  cases request with
  | get other | now | sleep ms | loadCard productId => exact .inl hitem
  | set changed raw ttlSec =>
      obtain hold | ⟨rfl, rfl⟩ := hset hitem
      · exact .inl hold
      · exact .inr (.inl ⟨raw, ttlSec, rfl, rfl⟩)
  | setNx name token ttlMs =>
      simp only [Redis.execute, Redis.setNx] at hitem
      split at hitem
      · exact .inl hitem
      · obtain hold | ⟨rfl, rfl⟩ := hset hitem
        · exact .inl hold
        · exact .inr (.inr ⟨token, ttlMs, rfl, rfl⟩)
  | release name token =>
      simp only [Redis.execute, Redis.release] at hitem
      split at hitem
      · by_cases heq : key = name
        · rw [heq, Function.update_self] at hitem
          cases hitem
        · rw [Function.update_of_ne heq] at hitem
          exact .inl hitem
      · exact .inl hitem

theorem setNx_of_ne {redis : Redis} {key name : Text} (hne : key ≠ name) (now : Nat) (token : Text)
    (ttlMs : Nat) : (redis.setNx now name token ttlMs).1 key = redis key := by
  unfold Redis.setNx
  split
  · rfl
  · exact set_of_ne hne now token ttlMs

theorem release_of_ne {redis : Redis} {key name : Text} (hne : key ≠ name) (now : Nat)
    (token : Text) :
    redis.release now name token key = redis key := by
  unfold Redis.release
  split
  · exact Function.update_of_ne hne _ _
  · rfl

theorem cardKey_ne_cardLockKey (productId other : ProductId) :
    cardKey productId ≠ cardLockKey other := by
  intro heq
  have hhead := congrArg List.head? heq
  simp [cardKey, cardLockKey] at hhead

end Marketplace.Cards
