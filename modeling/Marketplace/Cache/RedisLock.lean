import Marketplace.Cards.CardCache

/-!
# `RedisLock`

Any number of clients, each with calls of `acquire` and `release` of its own. A call sends one
command, Redis executes it at some time after that, all at once, and the answer arrives later still.
Between any two of these the clock may run past the deadline of a lock.
-/

namespace Marketplace.Cache

open Transition Expiring.Store

abbrev Redis := Cards.Redis

inductive Command where
  /-- `SET name token PX ttlMs NX`. -/
  | set (name token : Text) (ttlMs : Int)
  /-- `EVAL RELEASE_LUA 1 name token`. -/
  | release (name token : Text)
  deriving DecidableEq

inductive Reply where
  | ok
  | nil
  | integer (value : Int)
  /-- The promise rejects. -/
  | error
  deriving DecidableEq

/-- What Redis does on a command, and what it answers. -/
def execute (redis : Redis) (now : Nat) : Command → Redis × Reply
  | .set name token ttlMs =>
      -- a lifetime that is not positive is a syntax error, whether the key exists or not
      if 0 < ttlMs then
        match redis.setNx now name token ttlMs.toNat with
        | (redis, true) => (redis, .ok)
        | (redis, false) => (redis, .nil)
      else (redis, .error)
  | .release name token =>
      (redis.release now name token, .integer (if redis.read now name = some token then 1 else 0))

inductive Outcome where
  | acquired (token : Option Text)
  | released (removed : Bool)
  | threw
  deriving DecidableEq

/-- `acquire`, once its reply is there. -/
def RedisLock.acquire (token : Text) : Reply → Outcome
  | .ok => .acquired (some token)
  | .error => .threw
  | _ => .acquired none

/-- `release`, once its reply is there. -/
def RedisLock.release : Reply → Outcome
  | .integer removed => .released (removed = 1)
  | .error => .released false
  | _ => .released false

def Command.outcome : Command → Reply → Outcome
  | .set _ token _, reply => RedisLock.acquire token reply
  | .release _ _, reply => RedisLock.release reply

inductive Phase where
  | idle
  | sent (command : Command)
  | answered (command : Command) (reply : Reply)
  | returned (command : Command) (outcome : Outcome)
  deriving DecidableEq

/-- A command that Redis has executed. -/
structure Execution where
  call : Call
  time : Nat
  command : Command
  reply : Reply
  deriving DecidableEq

structure State where
  clock : Nat
  redis : Redis
  calls : Call → Phase
  /-- The tokens that `randomUUID` has made so far. -/
  tokens : List Text
  log : List Execution

inductive Action where
  | tick (ms : Nat)
  | acquire (call : Call) (name : Text) (ttlMs : Int) (token : Text)
  | release (call : Call) (name token : Text)
  | execute (call : Call)
  | receive (call : Call)
  deriving DecidableEq

def State.init : State where
  clock := 0
  redis := fun _ => none
  calls := fun _ => .idle
  tokens := []
  log := []

def step (state : State) : Action → Option State
  | .tick ms => some { state with clock := state.clock + ms }
  | .acquire call name ttlMs token =>
      if state.calls call = .idle ∧ token ∉ state.tokens then
        some { state with
          calls := Function.update state.calls call (.sent (.set name token ttlMs))
          tokens := state.tokens ++ [token] }
      else none
  | .release call name token =>
      if state.calls call = .idle then
        some { state with calls := Function.update state.calls call (.sent (.release name token)) }
      else none
  | .execute call =>
      match state.calls call with
      | .sent command =>
          let executed := execute state.redis state.clock command
          some { state with
            redis := executed.1
            calls := Function.update state.calls call (.answered command executed.2)
            log := state.log ++ [⟨call, state.clock, command, executed.2⟩] }
      | _ => none
  | .receive call =>
      match state.calls call with
      | .answered command reply =>
          some { state with
            calls := Function.update state.calls call (.returned command (command.outcome reply)) }
      | _ => none

/-! ### What the log says -/

/-- The command has stored this token, to last until the deadline. -/
def Execution.Stores (execution : Execution) (name token : Text) (deadline : Nat) : Prop :=
  execution.reply = .ok ∧ ∃ ttlMs, execution.command = .set name token ttlMs ∧
    execution.time + ttlMs.toNat = deadline

/-- The command has removed this token. -/
def Execution.Removes (execution : Execution) (name token : Text) : Prop :=
  execution.reply = .integer 1 ∧ execution.command = .release name token

/-- The command has stored a token that has neither expired nor been removed. -/
def State.Live (state : State) (execution : Execution) (name token : Text) : Prop :=
  ∃ deadline, execution.Stores name token deadline ∧ state.clock < deadline ∧
    ∀ other ∈ state.log, ¬ other.Removes name token

/-- What is stored under a name. -/
def State.stored (state : State) (name : Text) : Option Text := state.redis.read state.clock name

structure LockSafe (state : State) : Prop where
  /-- What is stored is what the log says. -/
  stored_iff : ∀ name token,
    state.stored name = some token ↔ ∃ execution ∈ state.log, state.Live execution name token
  /-- No two commands have tokens stored under one name. -/
  exclusive : ∀ name token token', ∀ first ∈ state.log, ∀ second ∈ state.log,
    state.Live first name token → state.Live second name token' → first = second
  /-- A token goes when its time is over or by a `release` with the token. -/
  removed : ∀ action after name token, step state action = some after →
    state.stored name = some token → after.stored name ≠ some token →
    (∃ ms item, action = .tick ms ∧ state.redis name = some item ∧ item.deadline ≤ after.clock) ∨
      ∃ call, action = .execute call ∧ state.calls call = .sent (.release name token)
  /-- A `release` with a token that has expired changes nothing. -/
  unchanged : ∀ call after name token deadline, ∀ execution ∈ state.log,
    execution.Stores name token deadline → deadline ≤ state.clock →
    state.calls call = .sent (.release name token) → step state (.execute call) = some after →
    after.redis = state.redis
  /-- It returns `false`. -/
  late : ∀ name token deadline outcome, ∀ execution ∈ state.log, ∀ other ∈ state.log,
    execution.Stores name token deadline → deadline ≤ other.time →
    state.calls other.call = .returned (.release name token) outcome → outcome = .released false
  /-- `acquire` returns its token if it has stored it, and no token otherwise. -/
  acquired : ∀ call name token ttlMs outcome found,
    state.calls call = .returned (.set name token ttlMs) outcome →
    (outcome = .acquired (some found) ↔ found = token ∧ ∃ execution ∈ state.log,
      execution.call = call ∧ ∃ deadline, execution.Stores name token deadline)

/-! ### The log and Redis -/

variable {clock : Nat} {redis : Redis} {log : List Execution} {execution other : Execution}
  {name name' token : Text} {deadline deadline' : Nat}

theorem Execution.Stores.deadline_eq (hstores : execution.Stores name token deadline)
    (hstores' : execution.Stores name' token deadline') : deadline = deadline' := by
  obtain ⟨-, ttlMs, hcommand, rfl⟩ := hstores
  obtain ⟨-, ttlMs', hcommand', rfl⟩ := hstores'
  rw [hcommand] at hcommand'
  cases hcommand'
  rfl

theorem execute_cases (redis : Redis) (now : Nat) (command : Command) :
    (∃ name token ttlMs, command = .set name token ttlMs ∧ redis.read now name = none ∧
      execute redis now command = (redis.set now name token ttlMs.toNat, .ok)) ∨
    (∃ name token, command = .release name token ∧ redis.read now name = some token ∧
      execute redis now command = (redis.delete name, .integer 1)) ∨
    ((execute redis now command).1 = redis ∧ (execute redis now command).2 ≠ .ok ∧
      (execute redis now command).2 ≠ .integer 1) := by
  cases command with
  | set name token ttlMs =>
      by_cases hpositive : 0 < ttlMs
      · cases hread : redis.read now name with
        | none =>
            refine .inl ⟨name, token, ttlMs, rfl, hread, ?_⟩
            simp [execute, hpositive, Cards.Redis.setNx, hread]
        | some found =>
            right
            right
            simp [execute, hpositive, Cards.Redis.setNx, hread]
      · right
        right
        simp [execute, hpositive]
  | release name token =>
      right
      by_cases hread : redis.read now name = some token
      · refine .inl ⟨name, token, rfl, hread, ?_⟩
        simp [execute, Cards.Redis.release, hread, Expiring.Store.delete]
      · right
        simp [execute, Cards.Redis.release, hread]

structure Agrees (clock : Nat) (redis : Redis) (log : List Execution) : Prop where
  past : ∀ execution ∈ log, execution.time ≤ clock
  granted : ∀ other ∈ log, ∀ name token, other.Removes name token →
    ∃ execution ∈ log, ∃ deadline, execution.Stores name token deadline
  timely : ∀ execution ∈ log, ∀ other ∈ log, ∀ name token deadline,
    execution.Stores name token deadline → other.Removes name token → other.time < deadline
  kept : ∀ name item, redis name = some item →
    (∃ execution ∈ log, execution.Stores name item.value item.deadline) ∧
      ∀ other ∈ log, ¬ other.Removes name item.value
  live : ∀ execution ∈ log, ∀ name token deadline, execution.Stores name token deadline →
    clock < deadline → (∀ other ∈ log, ¬ other.Removes name token) →
    redis name = some ⟨token, deadline⟩

theorem agrees_init : Agrees 0 (fun _ => none) [] where
  past := nofun
  granted := nofun
  timely := nofun
  kept := nofun
  live := nofun

theorem Agrees.tick (hagrees : Agrees clock redis log) (ms : Nat) :
    Agrees (clock + ms) redis log where
  past execution hmem := Nat.le_add_right_of_le (hagrees.past execution hmem)
  granted := hagrees.granted
  timely := hagrees.timely
  kept := hagrees.kept
  live execution hmem name token deadline hstores hlt :=
    hagrees.live execution hmem name token deadline hstores (by omega)

theorem forall_mem_snoc {cond : Execution → Prop} :
    (∀ entry ∈ log ++ [execution], cond entry) ↔ (∀ entry ∈ log, cond entry) ∧ cond execution := by
  simp [or_imp, forall_and]

theorem Execution.Stores.not_removes (hstores : execution.Stores name token deadline)
    (name' token' : Text) : ¬ execution.Removes name' token' := by
  rintro ⟨hone, -⟩
  rw [hstores.1] at hone
  cases hone

/-! What a new entry of the log has to bring for each of the facts. -/

section Snoc

variable (hagrees : Agrees clock redis log)
include hagrees

theorem Agrees.past_snoc (htime : execution.time = clock) :
    ∀ entry ∈ log ++ [execution], entry.time ≤ clock := by
  rw [forall_mem_snoc]
  exact ⟨hagrees.past, htime.le⟩

theorem Agrees.granted_snoc
    (hnew : ∀ name token, execution.Removes name token →
      ∃ entry ∈ log, ∃ deadline, entry.Stores name token deadline) :
    ∀ other ∈ log ++ [execution], ∀ name token, other.Removes name token →
      ∃ entry ∈ log ++ [execution], ∃ deadline, entry.Stores name token deadline := by
  have hall : ∀ other ∈ log ++ [execution], ∀ name token, other.Removes name token →
      ∃ entry ∈ log, ∃ deadline, entry.Stores name token deadline := by
    rw [forall_mem_snoc]
    exact ⟨hagrees.granted, hnew⟩
  intro other hmem name token hremoves
  obtain ⟨entry, hentry, hstores⟩ := hall other hmem name token hremoves
  exact ⟨entry, List.mem_append_left _ hentry, hstores⟩

theorem Agrees.timely_snoc
    (hstored : ∀ other ∈ log, ∀ name token deadline, execution.Stores name token deadline →
      ¬ other.Removes name token)
    (hremoved : ∀ entry ∈ log, ∀ name token deadline, entry.Stores name token deadline →
      execution.Removes name token → execution.time < deadline) :
    ∀ entry ∈ log ++ [execution], ∀ other ∈ log ++ [execution], ∀ name token deadline,
      entry.Stores name token deadline → other.Removes name token → other.time < deadline := by
  rw [forall_mem_snoc]
  constructor
  · intro entry hmem
    rw [forall_mem_snoc]
    exact ⟨hagrees.timely entry hmem, hremoved entry hmem⟩
  · rw [forall_mem_snoc]
    constructor
    · intro other hmem name token deadline hnew hold
      exact absurd hold (hstored other hmem name token deadline hnew)
    · intro name token deadline hnew hsame
      exact absurd hsame (hnew.not_removes name token)

theorem Agrees.kept_snoc {item : Expiring.Item Text} (hitem : redis name = some item)
    (hnew : ¬ execution.Removes name item.value) :
    (∃ entry ∈ log ++ [execution], entry.Stores name item.value item.deadline) ∧
      ∀ other ∈ log ++ [execution], ¬ other.Removes name item.value := by
  obtain ⟨⟨granted, hgranted, hdeadline⟩, hnot⟩ := hagrees.kept name item hitem
  rw [forall_mem_snoc]
  exact ⟨⟨granted, List.mem_append_left _ hgranted, hdeadline⟩, hnot, hnew⟩

end Snoc

/-- A command that leaves Redis as it is. -/
theorem Agrees.refused (hagrees : Agrees clock redis log) (htime : execution.time = clock)
    (hok : execution.reply ≠ .ok) (hone : execution.reply ≠ .integer 1) :
    Agrees clock redis (log ++ [execution]) := by
  have hstores : ∀ name token deadline, ¬ execution.Stores name token deadline :=
    fun _ _ _ hstores => hok hstores.1
  have hremoves : ∀ name token, ¬ execution.Removes name token :=
    fun _ _ hremoves => hone hremoves.1
  constructor
  · exact hagrees.past_snoc htime
  · apply hagrees.granted_snoc
    intro name token hnew
    exact absurd hnew (hremoves name token)
  · apply hagrees.timely_snoc
    · intro other _ name token deadline hnew
      exact absurd hnew (hstores name token deadline)
    · intro entry _ name token deadline _ hnew
      exact absurd hnew (hremoves name token)
  · intro name item hitem
    exact hagrees.kept_snoc hitem (hremoves name item.value)
  · rw [forall_mem_snoc]
    refine ⟨?_, fun name token deadline hnew => absurd hnew (hstores name token deadline)⟩
    intro entry hmem name token deadline hold hlt hnot
    rw [forall_mem_snoc] at hnot
    exact hagrees.live entry hmem name token deadline hold hlt hnot.1

/-- A token that no command has stored before is stored under a free name. -/
theorem Agrees.stored (hagrees : Agrees clock redis log) {ttlMs : Int}
    (htime : execution.time = clock) (hreply : execution.reply = .ok)
    (hcommand : execution.command = .set name token ttlMs) (hfree : redis.read clock name = none)
    (hfresh : ∀ entry ∈ log, ∀ name deadline, ¬ entry.Stores name token deadline) :
    Agrees clock (redis.set clock name token ttlMs.toNat) (log ++ [execution]) := by
  have hself : execution.Stores name token (clock + ttlMs.toNat) :=
    ⟨hreply, ttlMs, hcommand, by rw [htime]⟩
  have hstores : ∀ name' token' deadline, execution.Stores name' token' deadline →
      name' = name ∧ token' = token ∧ deadline = clock + ttlMs.toNat := by
    rintro name' token' deadline ⟨-, ttlMs', hcommand', rfl⟩
    rw [hcommand] at hcommand'
    cases hcommand'
    exact ⟨rfl, rfl, by rw [htime]⟩
  have hkept : ∀ other ∈ log, ∀ name, ¬ other.Removes name token := by
    intro other hmem name hold
    obtain ⟨granted, hgranted, deadline, hdeadline⟩ := hagrees.granted other hmem name token hold
    exact hfresh granted hgranted name deadline hdeadline
  constructor
  · exact hagrees.past_snoc htime
  · apply hagrees.granted_snoc
    intro name token hnew
    exact absurd hnew (hself.not_removes name token)
  · apply hagrees.timely_snoc
    · intro other hmem name' token' deadline hnew
      obtain ⟨rfl, rfl, -⟩ := hstores _ _ _ hnew
      exact hkept other hmem name'
    · intro entry _ name token deadline _ hnew
      exact absurd hnew (hself.not_removes name token)
  · intro name' item hitem
    by_cases hname : name' = name
    · subst hname
      rw [set_self] at hitem
      cases hitem
      rw [forall_mem_snoc]
      exact ⟨⟨execution, List.mem_append_right _ (List.mem_singleton.mpr rfl), hself⟩,
        fun other hmem => hkept other hmem _, hself.not_removes _ _⟩
    · rw [set_of_ne hname] at hitem
      exact hagrees.kept_snoc hitem (hself.not_removes _ _)
  · rw [forall_mem_snoc]
    constructor
    · intro entry hmem name' token' deadline hold hlt hnot
      rw [forall_mem_snoc] at hnot
      have hitem := hagrees.live entry hmem name' token' deadline hold hlt hnot.1
      have hname : name' ≠ name := by
        rintro rfl
        rw [read_of_lt hitem hlt] at hfree
        cases hfree
      rw [set_of_ne hname, hitem]
    · intro name' token' deadline hnew _ _
      obtain ⟨rfl, rfl, rfl⟩ := hstores _ _ _ hnew
      exact set_self _

/-- The token that is stored is removed. -/
theorem Agrees.removed (hagrees : Agrees clock redis log) (htime : execution.time = clock)
    (hreply : execution.reply = .integer 1) (hcommand : execution.command = .release name token)
    (hread : redis.read clock name = some token)
    (hunique : ∀ first ∈ log, ∀ second ∈ log, ∀ name name' deadline deadline',
      first.Stores name token deadline → second.Stores name' token deadline' → first = second) :
    Agrees clock (redis.delete name) (log ++ [execution]) := by
  obtain ⟨item, hitem, hlive, rfl⟩ := read_eq_some hread
  have hself : execution.Removes name item.value := ⟨hreply, hcommand⟩
  have hstores : ∀ name token deadline, ¬ execution.Stores name token deadline :=
    fun _ _ _ hnew => hnew.not_removes _ _ hself
  have hremoves : ∀ name' token, execution.Removes name' token → name' = name ∧
      token = item.value := by
    rintro name' token ⟨-, hcommand'⟩
    rw [hcommand] at hcommand'
    cases hcommand'
    exact ⟨rfl, rfl⟩
  obtain ⟨⟨granted, hgranted, hdeadline⟩, -⟩ := hagrees.kept name item hitem
  constructor
  · exact hagrees.past_snoc htime
  · apply hagrees.granted_snoc
    intro name' token hnew
    obtain ⟨rfl, rfl⟩ := hremoves _ _ hnew
    exact ⟨granted, hgranted, _, hdeadline⟩
  · apply hagrees.timely_snoc
    · intro other _ name token deadline hnew
      exact absurd hnew (hstores name token deadline)
    · intro entry hmem name' token deadline hold hnew
      obtain ⟨rfl, rfl⟩ := hremoves _ _ hnew
      obtain rfl := hunique entry hmem granted hgranted _ _ _ _ hold hdeadline
      rw [hold.deadline_eq hdeadline, htime]
      exact hlive
  · intro name' item' hitem'
    have hname : name' ≠ name := by
      rintro rfl
      rw [delete_self] at hitem'
      cases hitem'
    rw [delete_of_ne hname] at hitem'
    exact hagrees.kept_snoc hitem' fun hnew => hname (hremoves _ _ hnew).1
  · rw [forall_mem_snoc]
    refine ⟨?_, fun name token deadline hnew => absurd hnew (hstores name token deadline)⟩
    intro entry hmem name' token' deadline hold hlt hnot
    rw [forall_mem_snoc] at hnot
    have hitem' := hagrees.live entry hmem name' token' deadline hold hlt hnot.1
    have hname : name' ≠ name := by
      rintro rfl
      rw [hitem] at hitem'
      cases hitem'
      exact hnot.2 hself
    rw [delete_of_ne hname, hitem']

/-! ### Every run -/

variable {state after : State} {action : Action} {call : Call} {phase : Phase}

/-- The token that a call of `acquire` has drawn. -/
def Phase.ownToken : Phase → Option Text
  | sent (.set _ token _) | answered (.set _ token _) _ | returned (.set _ token _) _ => some token
  | _ => none

/-- What a call will return, once Redis has executed its command. -/
def Phase.done : Phase → Option (Command × Outcome)
  | answered command reply => some (command, command.outcome reply)
  | returned command outcome => some (command, outcome)
  | _ => none

structure Inv (state : State) : Prop where
  drawn : ∀ call token, (state.calls call).ownToken = some token → token ∈ state.tokens
  owner : ∀ call call' token, (state.calls call).ownToken = some token →
    (state.calls call').ownToken = some token → call = call'
  done_iff : ∀ call command outcome, (state.calls call).done = some (command, outcome) ↔
    ∃ execution ∈ state.log, execution.call = call ∧ execution.command = command ∧
      command.outcome execution.reply = outcome
  once : (state.log.map Execution.call).Nodup
  agrees : Agrees state.clock state.redis state.log

theorem inv_init : Inv State.init where
  drawn := nofun
  owner := nofun
  done_iff := by simp [State.init, Phase.done]
  once := List.nodup_nil
  agrees := agrees_init

theorem Phase.ownToken_of_done {command : Command} {outcome : Outcome}
    (hdone : phase.done = some (command, outcome)) {ttlMs : Int}
    (hcommand : command = .set name token ttlMs) : phase.ownToken = some token := by
  subst hcommand
  cases phase with
  | answered command reply =>
      cases hdone
      rfl
  | returned command outcome =>
      cases hdone
      rfl
  | _ => cases hdone

theorem Inv.ownToken_of_stores (hinv : Inv state) (hmem : execution ∈ state.log)
    (hstores : execution.Stores name token deadline) :
    (state.calls execution.call).ownToken = some token := by
  obtain ⟨-, ttlMs, hcommand, -⟩ := hstores
  have hdone := (hinv.done_iff execution.call _ _).mpr ⟨execution, hmem, rfl, rfl, rfl⟩
  exact Phase.ownToken_of_done hdone hcommand

theorem Inv.eq_of_call (hinv : Inv state) (hmem : execution ∈ state.log)
    (hother : other ∈ state.log) (hcall : execution.call = other.call) : execution = other :=
  List.inj_on_of_nodup_map hinv.once hmem hother hcall

theorem Inv.call_ne_of_sent (hinv : Inv state) {command : Command}
    (hphase : state.calls call = .sent command) (hmem : execution ∈ state.log) :
    execution.call ≠ call := by
  rintro rfl
  have hdone := (hinv.done_iff execution.call _ _).mpr ⟨execution, hmem, rfl, rfl, rfl⟩
  rw [hphase] at hdone
  cases hdone

/-- A token is stored once. -/
theorem Inv.eq_of_stores (hinv : Inv state) (hmem : execution ∈ state.log)
    (hother : other ∈ state.log) (hstores : execution.Stores name token deadline)
    (hstores' : other.Stores name' token deadline') :
    execution = other := by
  apply hinv.eq_of_call hmem hother
  exact hinv.owner _ _ token (hinv.ownToken_of_stores hmem hstores)
    (hinv.ownToken_of_stores hother hstores')

theorem update_same {Value : Type} (view : Phase → Value) {calls : Call → Phase} {next : Phase}
    (hsame : view next = view (calls call)) (other : Call) :
    view (Function.update calls call next other) = view (calls other) := by
  by_cases heq : other = call
  · rw [heq, Function.update_self, hsame]
  · rw [Function.update_of_ne heq]

/-- A step of one call that leaves Redis alone and draws no token. -/
theorem Inv.goto (hinv : Inv state) {next : Phase}
    (htoken : next.ownToken = (state.calls call).ownToken)
    (hdone : next.done = (state.calls call).done) :
    Inv { state with calls := Function.update state.calls call next } where
  drawn other token hother :=
    hinv.drawn other token ((update_same Phase.ownToken htoken other).symm.trans hother)
  owner left right token hleft hright :=
    hinv.owner left right token ((update_same Phase.ownToken htoken left).symm.trans hleft)
      ((update_same Phase.ownToken htoken right).symm.trans hright)
  done_iff other command outcome := by
    rw [← hinv.done_iff other, ← update_same Phase.done hdone other]
  once := hinv.once
  agrees := hinv.agrees

theorem Inv.acquire (hinv : Inv state) {ttlMs : Int} (hphase : state.calls call = .idle)
    (hfresh : token ∉ state.tokens) :
    Inv { state with
      calls := Function.update state.calls call (.sent (.set name token ttlMs))
      tokens := state.tokens ++ [token] } := by
  set calls := Function.update state.calls call (.sent (.set name token ttlMs))
  have hself : (calls call).ownToken = some token := by
    simp only [calls, Function.update_self]
    rfl
  have hold : ∀ {other}, other ≠ call → calls other = state.calls other :=
    fun hne => Function.update_of_ne hne _ _
  -- the others have drawn other tokens
  have hdrawn : ∀ {other found}, (calls other).ownToken = some found →
      other = call ∧ found = token ∨
        found ≠ token ∧ found ∈ state.tokens ∧ (state.calls other).ownToken = some found := by
    intro other found hfound
    by_cases heq : other = call
    · subst heq
      rw [hself] at hfound
      cases hfound
      exact .inl ⟨rfl, rfl⟩
    · rw [hold heq] at hfound
      have hmem := hinv.drawn other found hfound
      refine .inr ⟨?_, hmem, hfound⟩
      rintro rfl
      exact hfresh hmem
  constructor
  · intro other found hfound
    rcases hdrawn hfound with ⟨-, rfl⟩ | ⟨-, hmem, -⟩
    · exact List.mem_append_right _ (List.mem_singleton.mpr rfl)
    · exact List.mem_append_left _ hmem
  · intro left right found hleft hright
    rcases hdrawn hleft with ⟨rfl, rfl⟩ | ⟨hne, -, hleft⟩
    · rcases hdrawn hright with ⟨rfl, -⟩ | ⟨hne, -⟩
      · rfl
      · exact absurd rfl hne
    · rcases hdrawn hright with ⟨-, heq⟩ | ⟨-, -, hright⟩
      · exact absurd heq hne
      · exact hinv.owner left right found hleft hright
  · intro other command outcome
    have hdone : Phase.done (.sent (.set name token ttlMs)) = (state.calls call).done := by
      rw [hphase]
      rfl
    rw [← hinv.done_iff other, ← update_same Phase.done hdone other]
  · exact hinv.once
  · exact hinv.agrees

theorem Inv.execute (hinv : Inv state) {command : Command} {redis : Redis} {reply : Reply}
    (hphase : state.calls call = .sent command)
    (hagrees : Agrees state.clock redis (state.log ++ [⟨call, state.clock, command, reply⟩])) :
    Inv { state with
      redis := redis
      calls := Function.update state.calls call (.answered command reply)
      log := state.log ++ [⟨call, state.clock, command, reply⟩] } := by
  have htoken : (Phase.answered command reply).ownToken = (state.calls call).ownToken := by
    rw [hphase]
    cases command <;> rfl
  constructor
  · intro other token hother
    exact hinv.drawn other token ((update_same Phase.ownToken htoken other).symm.trans hother)
  · intro left right token hleft hright
    exact hinv.owner left right token ((update_same Phase.ownToken htoken left).symm.trans hleft)
      ((update_same Phase.ownToken htoken right).symm.trans hright)
  · intro other command' outcome
    simp only [List.mem_append, List.mem_singleton, or_and_right, exists_or, exists_eq_left]
    by_cases heq : other = call
    · subst heq
      have hno : ¬ ∃ execution ∈ state.log, execution.call = other ∧ execution.command = command' ∧
          command'.outcome execution.reply = outcome := by
        rintro ⟨execution, hmem, hcall, -⟩
        exact hinv.call_ne_of_sent hphase hmem hcall
      rw [or_iff_right hno, Function.update_self]
      simp only [Phase.done, Option.some.injEq, Prod.mk.injEq, true_and]
      constructor
      · rintro ⟨rfl, rfl⟩
        exact ⟨rfl, rfl⟩
      · rintro ⟨rfl, rfl⟩
        exact ⟨rfl, rfl⟩
    · rw [Function.update_of_ne heq, hinv.done_iff]
      simp [Ne.symm heq]
  · rw [List.map_append, List.nodup_append]
    refine ⟨hinv.once, List.nodup_singleton _, ?_⟩
    intro earlier hearlier last hlast heq
    obtain ⟨execution, hmem, rfl⟩ := List.mem_map.mp hearlier
    rw [List.map_singleton, List.mem_singleton] at hlast
    exact hinv.call_ne_of_sent hphase hmem (heq.trans hlast)
  · exact hagrees

theorem Inv.step (hinv : Inv state) (hstep : Cache.step state action = some after) : Inv after := by
  cases action with
  | tick ms =>
      cases hstep
      exact ⟨hinv.drawn, hinv.owner, hinv.done_iff, hinv.once, hinv.agrees.tick ms⟩
  | acquire call name ttlMs token =>
      simp only [Cache.step, Option.ite_none_right_eq_some] at hstep
      obtain ⟨⟨hidle, hfresh⟩, hstep⟩ := hstep
      cases hstep
      exact hinv.acquire hidle hfresh
  | release call name token =>
      simp only [Cache.step, Option.ite_none_right_eq_some] at hstep
      obtain ⟨hidle, hstep⟩ := hstep
      cases hstep
      apply hinv.goto <;> rw [hidle] <;> rfl
  | execute call =>
      simp only [Cache.step] at hstep
      split at hstep
      · rename_i command hphase
        cases hstep
        apply hinv.execute hphase
        rcases execute_cases state.redis state.clock command with
          ⟨name, token, ttlMs, rfl, hfree, hexecute⟩ | ⟨name, token, rfl, hread, hexecute⟩ |
          ⟨hsame, hok, hone⟩
        · rw [hexecute]
          refine hinv.agrees.stored rfl rfl rfl hfree ?_
          intro entry hmem name' deadline hstores
          have hown : (state.calls call).ownToken = some token := by
            rw [hphase]
            rfl
          apply hinv.call_ne_of_sent hphase hmem
          exact hinv.owner _ _ token (hinv.ownToken_of_stores hmem hstores) hown
        · rw [hexecute]
          refine hinv.agrees.removed rfl rfl rfl hread ?_
          intro first hfirst second hsecond _ _ _ _ hstores hstores'
          exact hinv.eq_of_stores hfirst hsecond hstores hstores'
        · rw [hsame]
          exact hinv.agrees.refused rfl hok hone
      · cases hstep
  | receive call =>
      simp only [Cache.step] at hstep
      split at hstep
      · rename_i command reply hphase
        cases hstep
        apply hinv.goto <;> rw [hphase]
        · cases command <;> rfl
        · rfl
      · cases hstep

theorem inv_reach (hreach : Reachable Cache.step State.init state) : Inv state := by
  refine Reach.invariant Inv inv_init ?_ hreach
  intro before action after _ hinv _ hstep
  exact hinv.step hstep

/-! ### What is promised -/

theorem acquire_eq_acquired {reply : Reply} {found : Text} :
    RedisLock.acquire token reply = .acquired (some found) ↔ found = token ∧ reply = .ok := by
  cases reply <;> simp [RedisLock.acquire, eq_comm]

theorem release_eq_false {reply : Reply} (hone : reply ≠ .integer 1) :
    RedisLock.release reply = .released false := by
  cases reply with
  | integer removed =>
      have hne : removed ≠ 1 := fun heq => hone (congrArg Reply.integer heq)
      simp [RedisLock.release, hne]
  | _ => rfl

theorem Inv.stored_iff (hinv : Inv state) :
    state.stored name = some token ↔ ∃ execution ∈ state.log, state.Live execution name token := by
  constructor
  · intro hread
    obtain ⟨item, hitem, hlive, rfl⟩ := read_eq_some hread
    obtain ⟨⟨execution, hmem, hstores⟩, hnot⟩ := hinv.agrees.kept name item hitem
    exact ⟨execution, hmem, item.deadline, hstores, hlive, hnot⟩
  · rintro ⟨execution, hmem, deadline, hstores, hlive, hnot⟩
    have hitem := hinv.agrees.live execution hmem name token deadline hstores hlive hnot
    exact read_of_lt hitem hlive

theorem Inv.exclusive (hinv : Inv state) {token' : Text} (hmem : execution ∈ state.log)
    (hother : other ∈ state.log) (hlive : state.Live execution name token)
    (hlive' : state.Live other name token') : execution = other := by
  have hstored := hinv.stored_iff.mpr ⟨execution, hmem, hlive⟩
  have hstored' := hinv.stored_iff.mpr ⟨other, hother, hlive'⟩
  obtain rfl : token = token' := Option.some.inj (hstored.symm.trans hstored')
  obtain ⟨deadline, hstores, -⟩ := hlive
  obtain ⟨deadline', hstores', -⟩ := hlive'
  exact hinv.eq_of_stores hmem hother hstores hstores'

theorem removed_of_step (hstep : step state action = some after)
    (hbefore : state.stored name = some token) (hafter : after.stored name ≠ some token) :
    (∃ ms item, action = .tick ms ∧ state.redis name = some item ∧ item.deadline ≤ after.clock) ∨
      ∃ call, action = .execute call ∧ state.calls call = .sent (.release name token) := by
  cases action with
  | tick ms =>
      cases hstep
      obtain ⟨item, hitem, -, rfl⟩ := read_eq_some hbefore
      refine .inl ⟨ms, item, rfl, hitem, ?_⟩
      by_contra hlive
      exact hafter (read_of_lt hitem (Nat.lt_of_not_le hlive))
  | acquire call name ttlMs token =>
      simp only [step, Option.ite_none_right_eq_some] at hstep
      cases hstep.2
      exact absurd hbefore hafter
  | release call name token =>
      simp only [step, Option.ite_none_right_eq_some] at hstep
      cases hstep.2
      exact absurd hbefore hafter
  | receive call =>
      simp only [step] at hstep
      split at hstep <;> cases hstep
      exact absurd hbefore hafter
  | execute call =>
      simp only [step] at hstep
      split at hstep <;> cases hstep
      rename_i command hphase
      rw [State.stored] at hbefore hafter
      rcases execute_cases state.redis state.clock command with
        ⟨name', token', ttlMs, rfl, hfree, hexecute⟩ | ⟨name', token', rfl, hread, hexecute⟩ |
        ⟨hsame, -⟩
      · have hne : name ≠ name' := by
          rintro rfl
          rw [hfree] at hbefore
          cases hbefore
        rw [hexecute] at hafter
        exact absurd ((read_congr (set_of_ne hne _ _ _) _).trans hbefore) hafter
      · by_cases heq : name = name'
        · subst heq
          obtain rfl : token = token' := Option.some.inj (hbefore.symm.trans hread)
          exact .inr ⟨call, rfl, hphase⟩
        · rw [hexecute] at hafter
          exact absurd ((read_congr (delete_of_ne heq) _).trans hbefore) hafter
      · rw [hsame] at hafter
        exact absurd hbefore hafter

/-- An expired token is not stored, whoever has the name by now. -/
theorem Inv.stored_ne_of_expired (hinv : Inv state) (hmem : execution ∈ state.log)
    (hstores : execution.Stores name token deadline) (hdead : deadline ≤ state.clock) :
    state.stored name ≠ some token := by
  intro hstored
  obtain ⟨other, hother, deadline', hstores', hlive, -⟩ := hinv.stored_iff.mp hstored
  obtain rfl := hinv.eq_of_stores hmem hother hstores hstores'
  rw [hstores.deadline_eq hstores'] at hdead
  exact Nat.lt_irrefl _ (Nat.lt_of_lt_of_le hlive hdead)

theorem Inv.unchanged (hinv : Inv state) (hmem : execution ∈ state.log)
    (hstores : execution.Stores name token deadline) (hdead : deadline ≤ state.clock)
    (hphase : state.calls call = .sent (.release name token))
    (hstep : Cache.step state (.execute call) = some after) : after.redis = state.redis := by
  simp only [Cache.step, hphase, Option.some.injEq] at hstep
  rw [← hstep]
  exact if_neg (hinv.stored_ne_of_expired hmem hstores hdead)

theorem Inv.returned (hinv : Inv state) {command : Command} {outcome : Outcome}
    (hreturned : state.calls call = .returned command outcome) :
    ∃ execution ∈ state.log, execution.call = call ∧ execution.command = command ∧
      command.outcome execution.reply = outcome := by
  rw [← hinv.done_iff, hreturned, Phase.done]

theorem Inv.late (hinv : Inv state) {outcome : Outcome} (hmem : execution ∈ state.log)
    (hother : other ∈ state.log) (hstores : execution.Stores name token deadline)
    (hdead : deadline ≤ other.time)
    (hreturned : state.calls other.call = .returned (.release name token) outcome) :
    outcome = .released false := by
  obtain ⟨same, hsame, hcall, hcommand, rfl⟩ := hinv.returned hreturned
  obtain rfl := hinv.eq_of_call hsame hother hcall
  apply release_eq_false
  intro hone
  have hlt := hinv.agrees.timely execution hmem same hsame name token deadline hstores
      ⟨hone, hcommand⟩
  omega

theorem Inv.acquired (hinv : Inv state) {ttlMs : Int} {outcome : Outcome} {found : Text}
    (hreturned : state.calls call = .returned (.set name token ttlMs) outcome) :
    outcome = .acquired (some found) ↔ found = token ∧ ∃ execution ∈ state.log,
      execution.call = call ∧ ∃ deadline, execution.Stores name token deadline := by
  obtain ⟨execution, hmem, hcall, hcommand, rfl⟩ := hinv.returned hreturned
  rw [Command.outcome, acquire_eq_acquired]
  apply and_congr_right
  intro _
  constructor
  · intro hok
    exact ⟨execution, hmem, hcall, _, hok, ttlMs, hcommand, rfl⟩
  · rintro ⟨same, hsame, hcall', _, hok, -⟩
    rwa [hinv.eq_of_call hmem hsame (hcall.trans hcall'.symm)]

/-- `RedisLock` is released by its holder only. -/
theorem redisLock_safe {state : State} (hreach : Reachable step State.init state) :
    LockSafe state := by
  have hinv := inv_reach hreach
  constructor
  · intro name token
    exact hinv.stored_iff
  · intro name token token' first hfirst second hsecond hlive hlive'
    exact hinv.exclusive hfirst hsecond hlive hlive'
  · intro action after name token hstep hbefore hafter
    exact removed_of_step hstep hbefore hafter
  · intro call after name token deadline execution hmem hstores hdead hphase hstep
    exact hinv.unchanged hmem hstores hdead hphase hstep
  · intro name token deadline outcome execution hmem other hother hstores hdead hreturned
    exact hinv.late hmem hother hstores hdead hreturned
  · intro call name token ttlMs outcome found hreturned
    exact hinv.acquired hreturned

def lockName : Text := ['l', 'o', 'c', 'k']

/-- The first client comes back late: its lock has expired and the second client has it. -/
def lateTrace : List Action :=
  [.acquire 0 lockName 100 ['a'], .acquire 1 lockName 100 ['b'], .execute 0, .receive 0, .tick 100,
    .execute 1, .receive 1, .release 2 lockName ['a'], .execute 2, .receive 2]

theorem redisLock_safe_late : ∃ state, Reachable step State.init state ∧
    (state.calls 0 = .returned (.set lockName ['a'] 100) (.acquired (some ['a'])) ∧
      state.calls 1 = .returned (.set lockName ['b'] 100) (.acquired (some ['b'])) ∧
      state.calls 2 = .returned (.release lockName ['a']) (.released false) ∧
      state.stored lockName = some ['b']) ∧ LockSafe state := by
  obtain ⟨state, hreach, hcheck⟩ : ∃ state, Reachable step State.init state ∧
      decide (state.calls 0 = .returned (.set lockName ['a'] 100) (.acquired (some ['a'])) ∧
        state.calls 1 = .returned (.set lockName ['b'] 100) (.acquired (some ['b'])) ∧
        state.calls 2 = .returned (.release lockName ['a']) (.released false) ∧
        state.stored lockName = some ['b']) = true :=
    exists_reach_of_runWithin lateTrace (by decide +kernel)
  exact ⟨state, hreach, of_decide_eq_true hcheck, redisLock_safe hreach⟩

end Marketplace.Cache
