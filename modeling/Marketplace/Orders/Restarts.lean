import Marketplace.Orders.OrderEvents

/-!
# SSE clients across restarts

A restart empties the buffer and begins the ids again at 1. A client keeps the id of the last event
that it has got, and presents it to a process that has never given it out.
-/

namespace Marketplace.OrderEvents.Restarts

open NumberedLog Transition

/-- Somebody who follows one order, over all connections. -/
structure Listener where
  orderId : OrderId
  /-- Received from processes that are gone. -/
  earlier : List OrderStatusEvent
  /-- Received from this process. -/
  seen : List OrderStatusEvent
  /-- What is written to the connection and has not arrived yet. -/
  pending : Option (List OrderStatusEvent)
  deriving DecidableEq

abbrev ListenerId := Nat

/-- The id of the last event received, which is the next `Last-Event-ID`; 0 without one. -/
def Listener.lastEventId (listener : Listener) : Nat :=
  lastNumber OrderStatusEvent.id (listener.earlier ++ listener.seen)

structure State where
  service : OrderEventsService
  listeners : ListenerId → Option Listener

inductive Action where
  | emitStatusChanged (orderId : OrderId) (status : String)
  /-- Somebody begins to follow an order. -/
  | listen (id : ListenerId) (orderId : OrderId)
  | streamEvents (id : ListenerId)
  /-- The next event arrives. -/
  | arrive (id : ListenerId)
  /-- The connection is gone, and with it what has not arrived. -/
  | close (id : ListenerId)
  | restart
  deriving DecidableEq

/-- What `streamEvents` writes before it subscribes. -/
def replay (service : OrderEventsService) (listener : Listener) : List OrderStatusEvent :=
  (service.getEventsAfter listener.lastEventId).filter fun event => event.orderId = listener.orderId

def Listener.onEvent (event : OrderStatusEvent) (listener : Listener) : Listener :=
  if event.orderId = listener.orderId then
    { listener with pending := listener.pending.map (· ++ [event]) }
  else listener

/-- The process is gone. -/
def Listener.restart (listener : Listener) : Listener :=
  { listener with earlier := listener.earlier ++ listener.seen, seen := [], pending := none }

section Steps

variable (state : State)

def State.init : State := ⟨.init, fun _ => none⟩

def State.put (id : ListenerId) (listener : Listener) : State :=
  { state with listeners := Function.update state.listeners id (some listener) }

def step : Action → Option State
  | .emitStatusChanged orderId status =>
      let (event, service) := state.service.emitStatusChanged orderId status
      some { service := service, listeners :=
        fun id => (state.listeners id).map (Listener.onEvent event) }
  | .listen id orderId =>
      match state.listeners id with
      | none => some (state.put id ⟨orderId, [], [], none⟩)
      | some _ => none
  | .streamEvents id =>
      match state.listeners id with
      | some ⟨orderId, earlier, seen, none⟩ =>
          let listener : Listener := ⟨orderId, earlier, seen, none⟩
          some (state.put id { listener with pending := some (replay state.service listener) })
      | _ => none
  | .arrive id =>
      match state.listeners id with
      | some ⟨orderId, earlier, seen, some (event :: rest)⟩ =>
          some (state.put id ⟨orderId, earlier, seen ++ [event], some rest⟩)
      | _ => none
  | .close id =>
      (state.listeners id).map fun listener => state.put id { listener with pending := none }
  | .restart => some ⟨.init, fun id => (state.listeners id).map Listener.restart⟩

end Steps

/-! ### What a listener misses -/

/-- The replay has every event of the order that the buffer has and the listener has not got. -/
def Complete (service : OrderEventsService) (listener : Listener) : Prop :=
  ∀ event ∈ service.history, event.orderId = listener.orderId → event ∉ listener.seen →
    event ∈ replay service listener

/-- The id comes from this process, or it is below those of the events of the order. -/
def Comparable (service : OrderEventsService) (listener : Listener) : Prop :=
  listener.seen ≠ [] ∨
    ∀ event ∈ service.history, event.orderId = listener.orderId → listener.lastEventId < event.id

instance (service : OrderEventsService) (listener : Listener) :
    Decidable (Comparable service listener) := by
  unfold Comparable
  infer_instance

/-- Nobody reconnects with an id that cannot be compared. -/
def ComparesOnly (state : State) : Action → Prop
  | .streamEvents id => ∀ listener ∈ state.listeners id, Comparable state.service listener
  | _ => True

instance (state : State) (action : Action) : Decidable (ComparesOnly state action) := by
  cases action <;> unfold ComparesOnly <;> infer_instance

structure ServiceInv (service : OrderEventsService) : Prop where
  increasing : service.history.Pairwise fun left right => left.id < right.id
  bounds : ∀ event ∈ service.history, 0 < event.id ∧ event.id < service.nextEventId
  next : 0 < service.nextEventId

def Listener.mark (listener : Listener) : Nat := lastNumber OrderStatusEvent.id listener.seen

/-- The events of the order that the buffer has and the listener has not got are new to it; while it
is connected, they are on their way. -/
structure ListenerInv (service : OrderEventsService) (listener : Listener) : Prop where
  mark : listener.mark < service.nextEventId
  seen : ∀ event ∈ service.history, event.orderId = listener.orderId → event.id ≤ listener.mark →
    event ∈ listener.seen
  increasing : ∀ pending ∈ listener.pending, pending.Pairwise fun left right => left.id < right.id
  bounds : ∀ pending ∈ listener.pending, ∀ event ∈ pending,
    listener.mark < event.id ∧ event.id < service.nextEventId
  coming : ∀ pending ∈ listener.pending, ∀ event ∈ service.history,
    event.orderId = listener.orderId →
    event ∈ listener.seen ∨ event ∈ pending

variable {state before after : State} {action : Action} {service : OrderEventsService}
  {listener : Listener} {id : ListenerId} {orderId : OrderId} {status : String}
  {event : OrderStatusEvent}

theorem mem_replay : event ∈ replay service listener ↔
    event ∈ service.history ∧ listener.lastEventId < event.id ∧
      event.orderId = listener.orderId := by
  rw [replay, List.mem_filter, OrderEventsService.getEventsAfter, List.mem_filter,
    decide_eq_true_eq, decide_eq_true_eq, and_assoc, Int.ofNat_lt]

theorem lastEventId_of_seen (hseen : listener.seen ≠ []) :
    listener.lastEventId = listener.mark := by
  rw [Listener.lastEventId, Listener.mark, lastNumber, lastNumber,
    List.getLast?_append_of_ne_nil _ hseen]

/-! ### Steps of the service -/

theorem history_emit :
    (service.emitStatusChanged orderId status).2.history ⊆
      service.history ++ [(service.emitStatusChanged orderId status).1] := by
  rw [OrderEventsService.emitStatusChanged]
  dsimp only
  split
  · exact (List.tail_sublist _).subset
  · exact List.Subset.refl _

theorem ServiceInv.emit (hinv : ServiceInv service) :
    ServiceInv (service.emitStatusChanged orderId status).2 := by
  have happend : (service.history ++ [(service.emitStatusChanged orderId status).1]).Pairwise
      fun left right => left.id < right.id := by
    rw [List.pairwise_append]
    refine ⟨hinv.increasing, List.pairwise_singleton _ _, fun left hleft right hright => ?_⟩
    rw [List.mem_singleton.mp hright]
    exact (hinv.bounds left hleft).2
  refine ⟨?_, ?_, Nat.succ_pos _⟩
  · refine happend.sublist ?_
    rw [OrderEventsService.emitStatusChanged]
    dsimp only
    split
    · exact List.tail_sublist _
    · exact List.Sublist.refl _
  · intro event hevent
    rcases List.mem_append.mp (history_emit hevent) with hold | hnew
    · obtain ⟨hpos, hlt⟩ := hinv.bounds event hold
      exact ⟨hpos, Nat.lt_succ_of_lt hlt⟩
    · rw [List.mem_singleton.mp hnew]
      exact ⟨hinv.next, Nat.lt_succ_self _⟩

/-! ### Steps of a listener -/

theorem ListenerInv.emit (hinv : ListenerInv service listener) :
    ListenerInv (service.emitStatusChanged orderId status).2
      (listener.onEvent (service.emitStatusChanged orderId status).1) := by
  have hseen : ∀ event ∈ (service.emitStatusChanged orderId status).2.history,
      event.orderId = listener.orderId → event.id ≤ listener.mark → event ∈ listener.seen := by
    intro event hevent horder hle
    rcases List.mem_append.mp (history_emit hevent) with hold | hnew
    · exact hinv.seen event hold horder hle
    · rw [List.mem_singleton.mp hnew] at hle
      exact absurd hinv.mark (Nat.not_lt.mpr hle)
  have hmark := Nat.lt_succ_of_lt hinv.mark
  unfold Listener.onEvent
  split
  · refine ⟨hmark, hseen, ?_, ?_, ?_⟩
    · intro pending hpending
      obtain ⟨old, hold, rfl⟩ := Option.map_eq_some_iff.mp hpending
      rw [List.pairwise_append]
      refine ⟨hinv.increasing old hold, List.pairwise_singleton _ _,
        fun left hleft right hright => ?_⟩
      rw [List.mem_singleton.mp hright]
      exact (hinv.bounds old hold left hleft).2
    · intro pending hpending event hevent
      obtain ⟨old, hold, rfl⟩ := Option.map_eq_some_iff.mp hpending
      rcases List.mem_append.mp hevent with hevent | hnew
      · obtain ⟨habove, hbelow⟩ := hinv.bounds old hold event hevent
        exact ⟨habove, Nat.lt_succ_of_lt hbelow⟩
      · rw [List.mem_singleton.mp hnew]
        exact ⟨hinv.mark, Nat.lt_succ_self _⟩
    · intro pending hpending event hevent horder
      obtain ⟨old, hold, rfl⟩ := Option.map_eq_some_iff.mp hpending
      rcases List.mem_append.mp (history_emit hevent) with hevent | hnew
      · exact (hinv.coming old hold event hevent horder).imp_right fun hmem =>
          List.mem_append_left _ hmem
      · exact .inr (List.mem_append_right _ hnew)
  · rename_i hother
    refine ⟨hmark, hseen, hinv.increasing, ?_, ?_⟩
    · intro pending hpending event hevent
      obtain ⟨habove, hbelow⟩ := hinv.bounds pending hpending event hevent
      exact ⟨habove, Nat.lt_succ_of_lt hbelow⟩
    · intro pending hpending event hevent horder
      rcases List.mem_append.mp (history_emit hevent) with hold | hnew
      · exact hinv.coming pending hpending event hold horder
      · rw [List.mem_singleton.mp hnew] at horder
        exact absurd horder hother

/-- The id is compared with ids of this process, so the replay has what is missing. -/
theorem ListenerInv.complete (hinv : ListenerInv service listener)
    (hknown : Comparable service listener) :
    Complete service listener := by
  intro event hevent horder hmissed
  refine mem_replay.mpr ⟨hevent, ?_, horder⟩
  obtain hseen | hbelow := hknown
  · rw [lastEventId_of_seen hseen]
    exact Nat.lt_of_not_le fun hle => hmissed (hinv.seen event hevent horder hle)
  · exact hbelow event hevent horder

theorem mark_lt_of_mem_replay (hservice : ServiceInv service)
    (hevent : event ∈ replay service listener) : listener.mark < event.id := by
  obtain ⟨hmem, hlt, -⟩ := mem_replay.mp hevent
  by_cases hseen : listener.seen = []
  · rw [Listener.mark, hseen]
    exact (hservice.bounds event hmem).1
  · rwa [← lastEventId_of_seen hseen]

theorem ListenerInv.connect (hservice : ServiceInv service) (hinv : ListenerInv service listener)
    (hknown : Comparable service listener) :
    ListenerInv service { listener with pending := some (replay service listener) } where
  mark := hinv.mark
  seen := hinv.seen
  increasing pending hpending := by
    cases hpending
    exact (hservice.increasing.sublist List.filter_sublist).sublist List.filter_sublist
  bounds pending hpending event hevent := by
    cases hpending
    have habove : listener.mark < event.id := mark_lt_of_mem_replay hservice hevent
    exact ⟨habove, (hservice.bounds event (mem_replay.mp hevent).1).2⟩
  coming pending hpending event hevent horder := by
    cases hpending
    by_cases hseen : event ∈ listener.seen
    · exact .inl hseen
    · exact .inr (hinv.complete hknown event hevent horder hseen)

theorem ListenerInv.arrive {earlier seen rest : List OrderStatusEvent}
    (hinv : ListenerInv service ⟨orderId, earlier, seen, some (event :: rest)⟩) :
    ListenerInv service ⟨orderId, earlier, seen ++ [event], some rest⟩ := by
  obtain ⟨hmark, hseen, hincreasing, hbounds, hcoming⟩ := hinv
  obtain ⟨hfirst, hrest⟩ := List.pairwise_cons.mp (hincreasing _ rfl)
  have hnew : Listener.mark ⟨orderId, earlier, seen ++ [event], some rest⟩ = event.id := by
    simp [Listener.mark, lastNumber]
  have hplace : ∀ other ∈ service.history, other.orderId = orderId →
      other ∈ seen ++ [event] ∨ other ∈ rest := by
    intro other hother horder
    rcases hcoming _ rfl other hother horder with hold | hpending
    · exact .inl (List.mem_append_left _ hold)
    · rcases List.mem_cons.mp hpending with rfl | hlater
      · exact .inl (List.mem_append_right _ List.mem_cons_self)
      · exact .inr hlater
  refine ⟨?_, ?_, ?_, ?_, ?_⟩
  · rw [hnew]
    exact (hbounds _ rfl event List.mem_cons_self).2
  · intro other hother horder hle
    rw [hnew] at hle
    rcases hplace other hother horder with hgot | hlater
    · exact hgot
    · exact absurd (hfirst other hlater) (Nat.not_lt.mpr hle)
  · rintro pending ⟨⟩
    exact hrest
  · rintro pending ⟨⟩ other hother
    rw [hnew]
    exact ⟨hfirst other hother, (hbounds _ rfl other (List.mem_cons_of_mem _ hother)).2⟩
  · rintro pending ⟨⟩
    exact hplace

theorem ListenerInv.close (hinv : ListenerInv service listener) :
    ListenerInv service { listener with pending := none } :=
  ⟨hinv.mark, hinv.seen, nofun, nofun, nofun⟩

theorem ListenerInv.fresh {earlier : List OrderStatusEvent} (hservice : ServiceInv service) :
    ListenerInv service ⟨orderId, earlier, [], none⟩ := by
  refine ⟨hservice.next, ?_, nofun, nofun, nofun⟩
  intro event hevent _ hle
  exact absurd (hservice.bounds event hevent).1 (Nat.not_lt.mpr hle)

/-! ### Runs -/

structure Inv (state : State) : Prop where
  service : ServiceInv state.service
  listeners : ∀ id listener, state.listeners id = some listener → ListenerInv state.service listener

theorem Inv.put (hinv : Inv state) (hlistener : ListenerInv state.service listener) :
    Inv (state.put id listener) := by
  refine ⟨hinv.service, fun other found hfound => ?_⟩
  have hfound : Function.update state.listeners id (some listener) other = some found := hfound
  by_cases heq : other = id
  · rw [heq, Function.update_self] at hfound
    cases hfound
    exact hlistener
  · rw [Function.update_of_ne heq] at hfound
    exact hinv.listeners other found hfound

theorem serviceInv_init : ServiceInv .init :=
  ⟨List.Pairwise.nil, nofun, Nat.one_pos⟩

theorem Inv.step (hinv : Inv before) (hok : ComparesOnly before action)
    (hstep : step before action = some after) : Inv after := by
  cases action with
  | emitStatusChanged orderId status =>
      cases hstep
      refine ⟨hinv.service.emit, fun id listener hlistener => ?_⟩
      obtain ⟨old, hold, rfl⟩ := Option.map_eq_some_iff.mp hlistener
      exact (hinv.listeners id old hold).emit
  | listen id orderId =>
      dsimp only [Restarts.step] at hstep
      split at hstep
      · cases hstep
        exact hinv.put (.fresh hinv.service)
      · cases hstep
  | streamEvents id =>
      dsimp only [Restarts.step] at hstep
      split at hstep
      · rename_i orderId earlier seen hlistener
        cases hstep
        exact hinv.put ((hinv.listeners id _ hlistener).connect hinv.service (hok _ hlistener))
      · cases hstep
  | arrive id =>
      dsimp only [Restarts.step] at hstep
      split at hstep
      · rename_i orderId earlier seen event rest hlistener
        cases hstep
        exact hinv.put (hinv.listeners id _ hlistener).arrive
      · cases hstep
  | close id =>
      obtain ⟨listener, hlistener, rfl⟩ := Option.map_eq_some_iff.mp hstep
      exact hinv.put (hinv.listeners id listener hlistener).close
  | restart =>
      cases hstep
      refine ⟨serviceInv_init, fun id listener hlistener => ?_⟩
      obtain ⟨old, -, rfl⟩ := Option.map_eq_some_iff.mp hlistener
      exact .fresh serviceInv_init

/-- A listener that reconnects is sent all that it has missed and that is still there, just when its
`Last-Event-ID` comes from this process or is below the ids of its order. -/
theorem replay_complete_iff {state : State} (hreach : Reach step ComparesOnly State.init state)
    {id : ListenerId} {listener : Listener} (hlistener : state.listeners id = some listener) :
    Complete state.service listener ↔ Comparable state.service listener := by
  have hinv : Inv state := by
    refine hreach.invariant Inv ⟨serviceInv_init, fun id listener hlistener => by
      cases hlistener⟩ ?_
    intro before action after _ hinv hok hstep
    exact hinv.step hok hstep
  constructor
  · intro hcomplete
    -- Before its first event from this process the listener has missed all of them.
    by_cases hseen : listener.seen = []
    · refine .inr fun event hevent horder => ?_
      have hreplayed := hcomplete event hevent horder (by simp [hseen])
      exact (mem_replay.mp hreplayed).2.1
    · exact .inl hseen
  · exact (hinv.listeners id listener hlistener).complete

/-- An event of order 7 arrives before a restart. After it another order has event 1, and order 7
event 2. -/
def earlyRestartTrace : List Action :=
  [.listen 0 7, .streamEvents 0, .emitStatusChanged 7 "paid", .arrive 0, .restart,
    .emitStatusChanged 8 "paid", .emitStatusChanged 7 "shipped"]

theorem replay_complete_iff_early : ∃ state listener, Reach step ComparesOnly State.init state ∧
    state.listeners 0 = some listener ∧ listener.lastEventId = 1 ∧
    Complete state.service listener := by
  obtain ⟨state, hreach, hcheck⟩ : ∃ state, Reach step ComparesOnly State.init state ∧
      decide (∃ listener ∈ state.listeners 0, listener.lastEventId = 1 ∧
        Comparable state.service listener) = true :=
    exists_reach_of_runWithin earlyRestartTrace (by decide +kernel)
  obtain ⟨listener, hlistener, hlast, hknown⟩ := of_decide_eq_true hcheck
  exact ⟨state, listener, hreach, hlistener, hlast,
    (replay_complete_iff hreach hlistener).mpr hknown⟩

/-- The client has had events 1 and 2 of the process that is gone; the new one has event 1 for
it. -/
def lateRestartTrace : List Action :=
  [.listen 0 7, .streamEvents 0, .emitStatusChanged 7 "paid", .emitStatusChanged 7 "packed",
    .arrive 0,
    .arrive 0, .restart, .emitStatusChanged 7 "shipped"]

theorem replay_misses_event : ¬ ∀ state, Reachable step State.init state → ∀ id listener,
    state.listeners id = some listener → listener.pending = none →
    Complete state.service listener := by
  intro hall
  obtain ⟨state, hreach, hcheck⟩ : ∃ state, Reachable step State.init state ∧
      decide (∃ listener ∈ state.listeners 0, listener.pending = none ∧
        ∃ event ∈ state.service.history, event.orderId = listener.orderId ∧ event ∉ listener.seen ∧
          event ∉ replay state.service listener) = true :=
    exists_reach_of_runWithin lateRestartTrace (by decide +kernel)
  obtain ⟨listener, hlistener, hclosed, event, hevent, horder, hmissed, hreplay⟩ :=
    of_decide_eq_true hcheck
  exact hreplay (hall state hreach 0 listener hlistener hclosed event hevent horder hmissed)

end Marketplace.OrderEvents.Restarts
