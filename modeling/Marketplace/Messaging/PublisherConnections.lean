import Mathlib.Data.List.Basic
import Marketplace.Lib.Transition

/-!
# The connections of `EventPublisher`

`conn` and `channelPromise`, and the calls of `openChannel` that set them. The handlers of a
connection and of its channel empty both fields, whichever connection they hold.
-/

namespace Marketplace.EventPublisher.Connections

open Transition

/-- Where a call of `openChannel` is. -/
inductive Stage where
  | connecting
  | creating
  | checking
  /-- The exchange is missing, and `conn.close()` is awaited. -/
  | closing
  | ready
  | rejected
  deriving DecidableEq

inductive Link where
  | opened
  /-- `close` has been called on it. -/
  | closing
  | closed
  deriving DecidableEq

/-- A call of `openChannel` and what it has opened. -/
structure Attempt where
  stage : Stage
  connection : Option Link
  /-- The confirm channel is open. -/
  channel : Bool
  deriving DecidableEq

abbrev AttemptId := Nat

structure State where
  conn : Option AttemptId
  channelPromise : Option AttemptId
  attempts : List Attempt
  /-- `close` has been called, and nothing has been opened since. -/
  closed : Bool
  deriving DecidableEq

inductive Action where
  /-- `getChannel`, for a call of `publish`. -/
  | getChannel
  | connected (id : AttemptId)
  | connectFailed (id : AttemptId)
  | created (id : AttemptId)
  | createFailed (id : AttemptId)
  | checked (id : AttemptId)
  | checkFailed (id : AttemptId)
  | close
  /-- The `close` event of a connection. Its channel is closed with it. -/
  | connectionClosed (id : AttemptId)
  /-- The `close` event of a channel. -/
  | channelClosed (id : AttemptId)
  deriving DecidableEq

namespace Attempt

variable (attempt : Attempt)

def isOpen : Bool := attempt.connection = some .opened || attempt.connection = some .closing

def inProgress : Bool :=
  match attempt.stage with
  | .connecting | .creating | .checking | .closing => true
  | .ready | .rejected => false

def isCurrent : Bool := attempt.stage = .ready && attempt.connection = some .opened

/-- Settled, and nothing of it is open. -/
def isGone : Bool := !attempt.inProgress && !attempt.isOpen

end Attempt

section Steps

variable (state : State)

def State.init : State := ⟨none, none, [], false⟩

def State.put (id : AttemptId) (attempt : Attempt) : State :=
  { state with attempts := state.attempts.set id attempt }

def State.reset : State := { state with conn := none, channelPromise := none }

/-- `openChannel` has thrown: the handler of `getChannel`. -/
def State.reject (id : AttemptId) (attempt : Attempt) : State :=
  { state.put id { attempt with stage := .rejected } with channelPromise := none }

def getChannel : State :=
  match state.channelPromise with
  | some _ => state
  | none =>
      { state with
        channelPromise := some state.attempts.length
        attempts := state.attempts ++ [⟨.connecting, none, false⟩]
        closed := false }

def checkFailed (id : AttemptId) (attempt : Attempt) : State :=
  if attempt.connection = some .opened then
    state.put id { attempt with stage := .closing, connection := some .closing }
  else state.reject id attempt

def close : State :=
  let closing := match state.conn with
    | some id =>
        { state with attempts := state.attempts.modify id fun attempt =>
            { attempt with connection := some .closing } }
    | none => state
  { closing.reset with closed := true }

/-- A call of `openChannel` that waits for this throws next. -/
def connectionClosed (id : AttemptId) (attempt : Attempt) : State :=
  (state.put id ⟨if attempt.stage = .closing then .rejected else attempt.stage,
    some .closed, false⟩).reset

def channelClosed (id : AttemptId) (attempt : Attempt) : State :=
  (state.put id { attempt with channel := false }).reset

/-- A step of one call of `openChannel`, or an event of what it has opened. -/
def stepOf (id : AttemptId) (enabled : Attempt → Bool) (next : Attempt → State) : Option State :=
  (state.attempts[id]?).bind fun attempt => if enabled attempt then some (next attempt) else none

def step : Action → Option State
  | .getChannel => some (getChannel state)
  | .connected id => stepOf state id (fun attempt => attempt.stage = .connecting) fun _ =>
      state.put id ⟨.creating, some .opened, false⟩
  | .connectFailed id => stepOf state id (fun attempt => attempt.stage = .connecting)
      (state.reject id)
  | .created id =>
      stepOf state id (fun attempt => attempt.stage = .creating && attempt.connection =
        some .opened)
        fun attempt => state.put id { attempt with stage := .checking, channel := true }
  | .createFailed id => stepOf state id (fun attempt => attempt.stage = .creating) (state.reject id)
  | .checked id =>
      stepOf state id
        (fun attempt => attempt.stage = .checking && attempt.connection = some .opened &&
          attempt.channel)
        fun attempt => { state.put id { attempt with stage := .ready } with conn := some id }
  | .checkFailed id => stepOf state id (fun attempt => attempt.stage = .checking)
      (checkFailed state id)
  | .close => some (close state)
  | .connectionClosed id => stepOf state id Attempt.isOpen (connectionClosed state id)
  | .channelClosed id => stepOf state id Attempt.channel (channelClosed state id)

end Steps

/-! ### What the publisher owns -/

/-- No `openChannel` is in progress. -/
def Settled (state : State) : Prop := ∀ attempt ∈ state.attempts, attempt.inProgress = false

structure OneConnection (state : State) : Prop where
  single : Settled state → ∀ (id other : AttemptId) (attempt found : Attempt),
    state.attempts[id]? = some attempt → state.attempts[other]? = some found →
      attempt.isOpen = true →
    found.isOpen = true → other = id
  /-- The events of one connection or channel leave the channel of another alone. -/
  kept : ∀ id action after, (action = .connectionClosed id ∨ action = .channelClosed id) →
    step state action = some after → ∀ (other : AttemptId) (found : Attempt), other ≠ id →
    state.attempts[other]? = some found → found.isCurrent = true → found.channel = true →
    after.conn = state.conn ∧ after.channelPromise = state.channelPromise
  /-- `close` has returned, and pending opens have settled. -/
  released : state.closed = true → Settled state →
    (∀ attempt ∈ state.attempts, attempt.connection ≠ some .closing) →
    ∀ attempt ∈ state.attempts, attempt.isOpen = false

/-- A channel gets ready only for the promise that is waiting for it, once everything else is closed
and settled; a connection without a channel, or whose channel is closed, is closed itself. -/
def Orderly (state : State) : Action → Prop
  | .checked id => state.channelPromise = some id ∧ ∀ other < state.attempts.length, other ≠ id →
      ∀ found ∈ state.attempts[other]?, found.isGone = true
  | .createFailed id => ∀ attempt ∈ state.attempts[id]?, attempt.isOpen = false
  | .channelClosed id => ∀ attempt ∈ state.attempts[id]?, attempt.isCurrent = false
  | _ => True

instance (state : State) (action : Action) : Decidable (Orderly state action) := by
  cases action <;> unfold Orderly <;> infer_instance

/-! ### At most one thing goes on -/

/-- The states that a call of `openChannel` can be in, in such a run. -/
def Attempt.Possible (attempt : Attempt) : Prop :=
  match attempt.stage, attempt.connection with
  | .connecting, none | .creating, some .closed | .checking, some .closed | .ready, some .closed
  | .rejected, none | .rejected, some .closed | .creating, some .opened => attempt.channel = false
  | .checking, some .opened | .closing, some .closing | .ready, some .opened | .ready,
      some .closing => True
  | _, _ => False

structure Inv (state : State) : Prop where
  possible : ∀ (id : AttemptId) (attempt : Attempt), state.attempts[id]? = some attempt →
    attempt.Possible
  /-- With a channel that is ready there is nothing else. -/
  current : ∀ (id : AttemptId) (attempt : Attempt), state.attempts[id]? = some attempt →
    attempt.isCurrent = true → state.conn = some id ∧ state.channelPromise = some id ∧
      ∀ (other : AttemptId) (found : Attempt), state.attempts[other]? = some found → other ≠ id →
        found.isGone = true
  conn : ∀ id, state.conn = some id → ∃ attempt, state.attempts[id]? = some attempt ∧
    attempt.isCurrent = true
  /-- While `close` closes a connection, others are open for calls of `openChannel` only. -/
  closing : ∀ (id : AttemptId) (attempt : Attempt), state.attempts[id]? = some attempt →
    attempt.stage = .ready → attempt.connection = some .closing →
    ∀ (other : AttemptId) (found : Attempt), state.attempts[other]? = some found → other ≠ id →
      found.isOpen = true → found.inProgress = true
  closed : state.closed = true → state.conn = none ∧ state.channelPromise = none

variable {state before after : State} {action : Action} {id : AttemptId} {old attempt : Attempt}

theorem inv_init : Inv State.init where
  possible := nofun
  current := nofun
  conn := nofun
  closing := nofun
  closed := nofun

/-- What holds of the changed call and of the others holds of all. -/
theorem forall_set {good : AttemptId → Attempt → Prop} {attempts : List Attempt}
    (hnew : good id attempt) (hothers : ∀ (other : AttemptId) (found : Attempt), other ≠ id →
      attempts[other]? = some found →
      good other found) :
    ∀ (other : AttemptId) (found : Attempt), (attempts.set id attempt)[other]? = some found →
      good other found := by
  intro other found hfound
  by_cases heq : other = id
  · subst heq
    obtain ⟨-, rfl⟩ : other < attempts.length ∧ attempt = found := by
      simpa [List.getElem?_set] using hfound
    exact hnew
  · rw [List.getElem?_set_ne (Ne.symm heq)] at hfound
    exact hothers other found heq hfound

theorem Attempt.isCurrent_iff : attempt.isCurrent = true ↔
    attempt.stage = .ready ∧ attempt.connection = some .opened := by
  simp [Attempt.isCurrent]

theorem Attempt.isGone_iff : attempt.isGone = true ↔
    attempt.inProgress = false ∧ attempt.isOpen = false := by
  simp [Attempt.isGone]

/-- What is not gone leaves no room for a channel that is ready. -/
theorem Inv.eq_of_current (hinv : Inv before) (hold : before.attempts[id]? = some old)
    (hgone : old.isGone = false) {other : AttemptId}
    (hother : before.attempts[other]? = some attempt) (hcurrent : attempt.isCurrent = true) :
    other = id := by
  by_contra hne
  have hgone' := (hinv.current other attempt hother hcurrent).2.2 id old hold (Ne.symm hne)
  rw [hgone] at hgone'
  cases hgone'

/-- A call that is not gone changes, and does not get ready. -/
theorem Inv.change (hinv : Inv before) (hold : before.attempts[id]? = some old)
    (hgone : old.isGone = false) (hpossible : attempt.Possible)
    (hcurrent : attempt.isCurrent = false)
    (hclosing : attempt.stage = .ready → attempt.connection = some .closing →
      old.stage = .ready ∧ old.connection = some .closing)
    (hopen : attempt.isOpen = true →
      attempt.inProgress = true ∨ old.isOpen = true ∧ attempt.inProgress = old.inProgress)
    {conn promise : Option AttemptId}
    (hconn : conn = none ∨ conn = before.conn ∧ old.isCurrent = false)
    (hpromise : promise = none ∨ promise = before.channelPromise) :
    Inv { before with
      attempts := before.attempts.set id attempt, conn := conn, channelPromise := promise } where
  possible := forall_set hpossible fun other found _ hfound => hinv.possible other found hfound
  current := by
    refine forall_set (fun hnow => ?_) fun other found hne hfound hnow => ?_
    · rw [hcurrent] at hnow
      cases hnow
    · exact absurd (hinv.eq_of_current hold hgone hfound hnow) hne
  conn other hother := by
    obtain rfl | ⟨rfl, hnot⟩ := hconn
    · cases hother
    · obtain ⟨found, hfound, hnow⟩ := hinv.conn other hother
      obtain rfl := hinv.eq_of_current hold hgone hfound hnow
      rw [hold] at hfound
      cases hfound
      rw [hnot] at hnow
      cases hnow
  closing := by
    refine forall_set (fun hready hlink => ?_) fun other found hne hfound hready hlink => ?_
    · obtain ⟨holdReady, holdLink⟩ := hclosing hready hlink
      refine forall_set (fun hne => absurd rfl hne) fun third found _ hfound => ?_
      exact hinv.closing id old hold holdReady holdLink third found hfound
    · refine forall_set (fun hne' hnew => ?_) fun third found' _ hfound' => ?_
      · obtain hprogress | ⟨holdOpen, hsame⟩ := hopen hnew
        · exact hprogress
        · rw [hsame]
          exact hinv.closing other found hfound hready hlink id old hold hne' holdOpen
      · exact hinv.closing other found hfound hready hlink third found' hfound'
  closed hclosed := by
    obtain ⟨hnone, hnone'⟩ := hinv.closed hclosed
    refine ⟨?_, ?_⟩
    · obtain rfl | ⟨rfl, -⟩ := hconn
      · rfl
      · exact hnone
    · obtain rfl | rfl := hpromise
      · rfl
      · exact hnone'

theorem Inv.getChannel (hinv : Inv before) : Inv (getChannel before) := by
  unfold Connections.getChannel
  split
  · exact hinv
  rename_i hpromise
  have hnone : ∀ (other : AttemptId) (found : Attempt), before.attempts[other]? = some found →
      found.isCurrent = false := by
    intro other found hfound
    by_contra hcurrent
    have hsome := (hinv.current other found hfound (by simpa using hcurrent)).2.1
    rw [hpromise] at hsome
    cases hsome
  have hcases : ∀ (other : AttemptId) (found : Attempt),
      (before.attempts ++ [⟨.connecting, none, false⟩])[other]? = some found →
      before.attempts[other]? = some found ∨ found = ⟨.connecting, none, false⟩ := by
    intro other found hfound
    by_cases hlt : other < before.attempts.length
    · rw [List.getElem?_append_left hlt] at hfound
      exact .inl hfound
    · rw [List.getElem?_append_right (Nat.le_of_not_lt hlt), List.getElem?_singleton] at hfound
      split at hfound
      · exact .inr (Option.some.inj hfound).symm
      · cases hfound
  refine ⟨fun other found hfound => ?_, fun other found hfound hcurrent => ?_,
    fun other hother => ?_,
    fun other found hfound hready hlink third found' hfound' hne hopen => ?_, nofun⟩
  · obtain hold | rfl := hcases other found hfound
    · exact hinv.possible other found hold
    · rfl
  · obtain hold | rfl := hcases other found hfound
    · rw [hnone other found hold] at hcurrent
      cases hcurrent
    · cases hcurrent
  · obtain ⟨found, hfound, hcurrent⟩ := hinv.conn other hother
    rw [hnone other found hfound] at hcurrent
    cases hcurrent
  · obtain hold | rfl := hcases other found hfound
    · obtain hold' | rfl := hcases third found' hfound'
      · exact hinv.closing other found hold hready hlink third found' hold' hne hopen
      · rfl
    · cases hready

theorem close_of_conn (hconn : before.conn = some id) (hold : before.attempts[id]? = some old) :
    close before =
      ⟨none, none, before.attempts.set id { old with connection := some .closing }, true⟩ := by
  simp [close, hconn, State.reset, List.modify_eq_set_getElem?, hold]

theorem close_of_none (hconn : before.conn = none) :
    close before = ⟨none, none, before.attempts, true⟩ := by
  simp [close, hconn, State.reset]

theorem Inv.close (hinv : Inv before) : Inv (close before) := by
  cases hconn : before.conn with
  | none =>
      rw [close_of_none hconn]
      refine ⟨hinv.possible, fun other found hfound hcurrent => ?_, nofun, hinv.closing,
        fun _ => ⟨rfl, rfl⟩⟩
      have hsome := (hinv.current other found hfound hcurrent).1
      rw [hconn] at hsome
      cases hsome
  | some id =>
      obtain ⟨old, hold, hcurrent⟩ := hinv.conn id hconn
      obtain ⟨-, -, hgone⟩ := hinv.current id old hold hcurrent
      obtain ⟨hstage, hlink⟩ := Attempt.isCurrent_iff.mp hcurrent
      have hclosed : ∀ (other : AttemptId) (found : Attempt), before.attempts[other]? = some found →
          other ≠ id → found.isOpen = false := fun other found hfound hne =>
        (Attempt.isGone_iff.mp (hgone other found hfound hne)).2
      rw [close_of_conn hconn hold]
      refine ⟨forall_set ?_ fun other found _ hfound => hinv.possible other found hfound, ?_,
        nofun, ?_, fun _ => ⟨rfl, rfl⟩⟩
      · simp [Attempt.Possible, hstage]
      · refine forall_set (fun hnow => ?_) fun other found hne hfound hnow => ?_
        · simp [Attempt.isCurrent] at hnow
        · have hopen := hclosed other found hfound hne
          rw [Attempt.isOpen, (Attempt.isCurrent_iff.mp hnow).2] at hopen
          cases hopen
      · refine forall_set (fun _ _ => ?_) fun other found hne hfound hready hlink' => ?_
        · refine forall_set (fun hne => absurd rfl hne) fun other found hne hfound _ hopen => ?_
          rw [hclosed other found hfound hne] at hopen
          cases hopen
        · have hopen := hclosed other found hfound hne
          rw [Attempt.isOpen, hlink'] at hopen
          cases hopen

/-- The only channel that gets ready finds nothing else open. -/
theorem Inv.checked (hinv : Inv before) (hold : before.attempts[id]? = some old)
    (hlink : old.connection = some .opened) (hpromise : before.channelPromise = some id)
    (hgone : ∀ (other : AttemptId) (found : Attempt), before.attempts[other]? = some found →
      other ≠ id →
      found.isGone = true) :
    Inv { before.put id { old with stage := .ready } with conn := some id } := by
  have hclosed : ∀ (other : AttemptId) (found : Attempt), before.attempts[other]? = some found →
      other ≠ id → found.isOpen = false := fun other found hfound hne =>
    (Attempt.isGone_iff.mp (hgone other found hfound hne)).2
  have hlt : id < before.attempts.length := (List.getElem?_eq_some_iff.mp hold).1
  refine ⟨forall_set ?_ fun other found _ hfound => hinv.possible other found hfound, ?_,
    ?_, ?_, ?_⟩
  · simp [Attempt.Possible, hlink]
  · refine forall_set (fun _ => ⟨rfl, hpromise, ?_⟩) fun other found hne hfound hnow => ?_
    · exact forall_set (fun hne => absurd rfl hne) fun other found _ hfound =>
        hgone other found hfound
    · have hopen := hclosed other found hfound hne
      rw [Attempt.isOpen, (Attempt.isCurrent_iff.mp hnow).2] at hopen
      cases hopen
  · intro other hother
    cases hother
    refine ⟨{ old with stage := .ready }, by simp [State.put, hlt], ?_⟩
    simp [Attempt.isCurrent, hlink]
  · refine forall_set (fun _ hnow => ?_) fun other found hne hfound hready hlink' => ?_
    · dsimp only at hnow
      rw [hlink] at hnow
      cases hnow
    · have hopen := hclosed other found hfound hne
      rw [Attempt.isOpen, hlink'] at hopen
      cases hopen
  · intro hclosed
    have hnone := (hinv.closed hclosed).2
    rw [hpromise] at hnone
    cases hnone

theorem stepOf_eq_some {enabled : Attempt → Bool} {next : Attempt → State}
    (hstep : stepOf before id enabled next = some after) :
    ∃ old, before.attempts[id]? = some old ∧ enabled old = true ∧ next old = after := by
  obtain ⟨old, hold, hnext⟩ := Option.bind_eq_some_iff.mp hstep
  split at hnext
  · rename_i henabled
    exact ⟨old, hold, henabled, Option.some.inj hnext⟩
  · cases hnext

theorem Attempt.not_gone_of_inProgress (hprogress : old.inProgress = true) :
    old.isGone = false := by
  simp [Attempt.isGone, hprogress]

theorem Attempt.not_current_of_inProgress (hprogress : old.inProgress = true) :
    old.isCurrent = false := by
  rw [Attempt.inProgress] at hprogress
  rw [Attempt.isCurrent]
  split at hprogress <;> simp_all

theorem Attempt.Possible.isOpen_of_channel (hpossible : old.Possible)
    (hchannel : old.channel = true) :
    old.isOpen = true := by
  obtain ⟨stage, connection, channel⟩ := old
  cases stage <;> obtain _ | _ | _ | _ := connection <;> simp_all [Attempt.Possible, Attempt.isOpen]

theorem Attempt.Possible.not_open_of_connecting (hpossible : old.Possible)
    (hstage : old.stage = .connecting) : old.isOpen = false := by
  obtain ⟨stage, connection, channel⟩ := old
  cases hstage
  obtain _ | _ | _ | _ := connection <;> simp_all [Attempt.Possible, Attempt.isOpen]

theorem Attempt.Possible.not_open_of_checking (hpossible : old.Possible)
    (hstage : old.stage = .checking) (hlink : old.connection ≠ some .opened) :
    old.isOpen = false := by
  obtain ⟨stage, connection, channel⟩ := old
  cases hstage
  obtain _ | _ | _ | _ := connection <;> simp_all [Attempt.Possible, Attempt.isOpen]

/-- A call throws whose connection is not open. -/
theorem Inv.reject (hinv : Inv before) (hold : before.attempts[id]? = some old)
    (hprogress : old.inProgress = true) (hopen : old.isOpen = false) :
    Inv (before.reject id old) := by
  refine hinv.change hold (Attempt.not_gone_of_inProgress hprogress) ?_
    (by simp [Attempt.isCurrent]) (fun hready => by cases hready) (fun hnow => ?_)
    (.inr ⟨rfl, Attempt.not_current_of_inProgress hprogress⟩) (.inl rfl)
  · have hpossible := hinv.possible id old hold
    obtain ⟨stage, connection, channel⟩ := old
    cases stage <;> obtain _ | _ | _ | _ := connection <;>
      simp_all [Attempt.Possible, Attempt.isOpen, Attempt.inProgress]
  · rw [Attempt.isOpen] at hopen hnow
    rw [hopen] at hnow
    cases hnow

theorem Inv.connectionClosed (hinv : Inv before) (hold : before.attempts[id]? = some old)
    (hopen : old.isOpen = true) : Inv (connectionClosed before id old) := by
  refine hinv.change hold (by simp [Attempt.isGone, hopen]) ?_ (by simp [Attempt.isCurrent])
    (fun _ hlink => by cases hlink) (fun hnow => by cases hnow) (.inl rfl) (.inl rfl)
  have hpossible := hinv.possible id old hold
  obtain ⟨stage, connection, channel⟩ := old
  cases stage <;> obtain _ | _ | _ | _ := connection <;> simp_all [Attempt.Possible, Attempt.isOpen]

theorem Inv.channelClosed (hinv : Inv before) (hold : before.attempts[id]? = some old)
    (hchannel : old.channel = true) (hnot : old.isCurrent = false) :
    Inv (channelClosed before id old) := by
  have hpossible := hinv.possible id old hold
  have hopen : old.isOpen = true := hpossible.isOpen_of_channel hchannel
  have hnot : Attempt.isCurrent { old with channel := false } = false := hnot
  refine hinv.change hold (by simp [Attempt.isGone, hopen]) ?_ hnot
    (fun hready hlink => ⟨hready, hlink⟩) (fun _ => .inr ⟨hopen, rfl⟩) (.inl rfl) (.inl rfl)
  obtain ⟨stage, connection, channel⟩ := old
  cases stage <;> obtain _ | _ | _ | _ := connection <;> simp_all [Attempt.Possible]

theorem Inv.checkFailed (hinv : Inv before) (hold : before.attempts[id]? = some old)
    (hstage : old.stage = .checking) : Inv (checkFailed before id old) := by
  have hprogress : old.inProgress = true := by simp [Attempt.inProgress, hstage]
  have hpossible := hinv.possible id old hold
  unfold Connections.checkFailed
  split
  · refine hinv.change hold (Attempt.not_gone_of_inProgress hprogress) ?_
      (by simp [Attempt.isCurrent]) (fun hready => by cases hready) (fun _ => .inl rfl)
      (.inr ⟨rfl, Attempt.not_current_of_inProgress hprogress⟩) (.inr rfl)
    simp [Attempt.Possible]
  · rename_i hlink
    exact hinv.reject hold hprogress (hpossible.not_open_of_checking hstage hlink)

theorem inv_step (hinv : Inv before) (hok : Orderly before action)
    (hstep : step before action = some after) : Inv after := by
  cases action with
  | getChannel =>
      cases hstep
      exact hinv.getChannel
  | close =>
      cases hstep
      exact hinv.close
  | connected id =>
      obtain ⟨old, hold, hstage, rfl⟩ := stepOf_eq_some hstep
      have hprogress : old.inProgress = true := by simp_all [Attempt.inProgress]
      have hpossible : Attempt.Possible ⟨.creating, some .opened, false⟩ := rfl
      exact hinv.change hold (Attempt.not_gone_of_inProgress hprogress) hpossible rfl
        (fun hready => by cases hready) (fun _ => .inl rfl)
        (.inr ⟨rfl, Attempt.not_current_of_inProgress hprogress⟩) (.inr rfl)
  | connectFailed id =>
      obtain ⟨old, hold, hstage, rfl⟩ := stepOf_eq_some hstep
      have hprogress : old.inProgress = true := by simp_all [Attempt.inProgress]
      have hpossible := hinv.possible id old hold
      exact hinv.reject hold hprogress (hpossible.not_open_of_connecting (by simpa using hstage))
  | created id =>
      obtain ⟨old, hold, henabled, rfl⟩ := stepOf_eq_some hstep
      obtain ⟨hstage, hlink⟩ : old.stage = .creating ∧ old.connection = some .opened := by
        simpa using henabled
      have hprogress : old.inProgress = true := by simp [Attempt.inProgress, hstage]
      refine hinv.change hold (Attempt.not_gone_of_inProgress hprogress) ?_
        (by simp [Attempt.isCurrent]) (fun hready => by cases hready) (fun _ => .inl rfl)
        (.inr ⟨rfl, Attempt.not_current_of_inProgress hprogress⟩) (.inr rfl)
      simp [Attempt.Possible, hlink]
  | createFailed id =>
      obtain ⟨old, hold, hstage, rfl⟩ := stepOf_eq_some hstep
      have hprogress : old.inProgress = true := by simp_all [Attempt.inProgress]
      exact hinv.reject hold hprogress (hok old hold)
  | checked id =>
      obtain ⟨old, hold, henabled, rfl⟩ := stepOf_eq_some hstep
      obtain ⟨⟨hstage, hlink⟩, hchannel⟩ : (old.stage = .checking ∧ old.connection = some .opened) ∧
          old.channel = true := by
        simpa using henabled
      refine hinv.checked hold hlink hok.1 fun other found hfound hne => ?_
      exact hok.2 other (List.getElem?_eq_some_iff.mp hfound).1 hne found hfound
  | checkFailed id =>
      obtain ⟨old, hold, hstage, rfl⟩ := stepOf_eq_some hstep
      exact hinv.checkFailed hold (by simpa using hstage)
  | connectionClosed id =>
      obtain ⟨old, hold, hopen, rfl⟩ := stepOf_eq_some hstep
      exact hinv.connectionClosed hold hopen
  | channelClosed id =>
      obtain ⟨old, hold, hchannel, rfl⟩ := stepOf_eq_some hstep
      exact hinv.channelClosed hold hchannel (hok old hold)

/-- What is open in a settled state is the current connection, or one that `close` is closing. -/
theorem Inv.open_cases (hinv : Inv state) (hold : state.attempts[id]? = some old)
    (hprogress : old.inProgress = false) (hopen : old.isOpen = true) :
    old.isCurrent = true ∨ old.stage = .ready ∧ old.connection = some .closing := by
  have hpossible := hinv.possible id old hold
  obtain ⟨stage, connection, channel⟩ := old
  cases stage <;> obtain _ | _ | _ | _ := connection <;>
    simp_all [Attempt.Possible, Attempt.isOpen, Attempt.inProgress, Attempt.isCurrent]

theorem Inv.single (hinv : Inv state) (hsettled : Settled state) {other : AttemptId}
    (hold : state.attempts[id]? = some old) (hother : state.attempts[other]? = some attempt)
    (hopen : old.isOpen = true) (hopen' : attempt.isOpen = true) : other = id := by
  by_contra hne
  obtain hcurrent |
      ⟨hready, hlink⟩ := hinv.open_cases hold (hsettled old (List.mem_of_getElem? hold)) hopen
  · have hgone := (hinv.current id old hold hcurrent).2.2 other attempt hother hne
    rw [(Attempt.isGone_iff.mp hgone).2] at hopen'
    cases hopen'
  · have hprogress := hinv.closing id old hold hready hlink other attempt hother hne hopen'
    rw [hsettled attempt (List.mem_of_getElem? hother)] at hprogress
    cases hprogress

theorem Inv.kept (hinv : Inv state)
    (haction : action = .connectionClosed id ∨ action = .channelClosed id)
    (hstep : step state action = some after) {other : AttemptId} (hne : other ≠ id)
    (hother : state.attempts[other]? = some attempt)
    (hcurrent : attempt.isCurrent = true) : False := by
  obtain ⟨old, hold, hopen⟩ : ∃ old, state.attempts[id]? = some old ∧ old.isOpen = true := by
    obtain rfl | rfl := haction
    · obtain ⟨old, hold, hopen, -⟩ := stepOf_eq_some hstep
      exact ⟨old, hold, hopen⟩
    · obtain ⟨old, hold, hchannel, -⟩ := stepOf_eq_some hstep
      exact ⟨old, hold, (hinv.possible id old hold).isOpen_of_channel hchannel⟩
  have hgone := (hinv.current other attempt hother hcurrent).2.2 id old hold (Ne.symm hne)
  rw [(Attempt.isGone_iff.mp hgone).2] at hopen
  cases hopen

/-- In an orderly run the publisher owns one connection at most. -/
theorem oneConnection_of_reach {state : State} (hreach : Reach step Orderly State.init state) :
    OneConnection state := by
  have hinv : Inv state :=
    hreach.invariant Inv inv_init fun _ _ _ _ hinv hok hstep => inv_step hinv hok hstep
  refine ⟨?_, ?_, ?_⟩
  · intro hsettled id other attempt found hattempt hfound hopen hopen'
    exact hinv.single hsettled hattempt hfound hopen hopen'
  · intro id action after haction hstep other found hne hfound hcurrent _
    exact absurd hcurrent fun hcurrent => hinv.kept haction hstep hne hfound hcurrent
  · intro hclosed hsettled hreturned attempt hattempt
    by_contra hopen
    obtain ⟨id, hid⟩ := List.mem_iff_getElem?.mp hattempt
    obtain hcurrent | ⟨-, hlink⟩ := hinv.open_cases hid (hsettled attempt hattempt)
        (by simpa using hopen)
    · have hconn := (hinv.current id attempt hid hcurrent).1
      rw [(hinv.closed hclosed).1] at hconn
      cases hconn
    · exact hreturned attempt hattempt hlink

/-- The connection is lost, and the next `publish` opens another. -/
def reconnectTrace : List Action :=
  [.getChannel, .connected 0, .created 0, .checked 0, .connectionClosed 0, .getChannel,
    .connected 1,
    .created 1, .checked 1]

theorem oneConnection_of_reach_reconnect : ∃ state, Reach step Orderly State.init state ∧
    state.attempts.map Attempt.isOpen = [false, true] ∧ OneConnection state := by
  obtain ⟨state, hreach, hcheck⟩ : ∃ state, Reach step Orderly State.init state ∧
      decide (state.attempts.map Attempt.isOpen = [false, true]) = true :=
    exists_reach_of_runWithin reconnectTrace (by decide +kernel)
  exact ⟨state, hreach, of_decide_eq_true hcheck, oneConnection_of_reach hreach⟩

/-- The broker closes the channel, not the connection, and the next `publish` opens another. -/
def channelErrorTrace : List Action :=
  [.getChannel, .connected 0, .created 0, .checked 0, .channelClosed 0, .getChannel, .connected 1,
    .created 1, .checked 1]

theorem channelError_leaks_connection :
    ¬ ∀ state, Reachable step State.init state → OneConnection state := by
  intro hall
  obtain ⟨state, hreach, hcheck⟩ : ∃ state, Reachable step State.init state ∧
      decide (state.attempts =
        [⟨.ready, some .opened, false⟩, ⟨.ready, some .opened, true⟩]) = true :=
    exists_reach_of_runWithin channelErrorTrace (by decide +kernel)
  have hattempts := of_decide_eq_true hcheck
  have hsettled : Settled state := by
    intro attempt hattempt
    rw [hattempts] at hattempt
    rcases List.mem_pair.mp hattempt with rfl | rfl <;> rfl
  have hsame := (hall state hreach).single hsettled 0 1 ⟨.ready, some .opened, false⟩
    ⟨.ready, some .opened, true⟩ (by rw [hattempts]; rfl) (by rw [hattempts]; rfl) rfl rfl
  cases hsame

end Marketplace.EventPublisher.Connections
