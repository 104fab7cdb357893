import Marketplace.Numbers
import Marketplace.Orders.CreateIdempotent
import Marketplace.Orders.StreamEvents

/-!
# `OrdersService.updateStatus`

An UPDATE commits by itself; the event is emitted when its reply arrives, and replies on different
connections overtake each other. What is pushed last is what is stored as long as the reply that
comes last is the one of the UPDATE that committed last.
-/

namespace Marketplace.UpdateStatus

open Checkout (JsNumber)
open Orders (Order OrderResponse Failure toResponse)
open OrderEvents (OrderStatusEvent ofOrder)
open Transition

inductive Phase where
  | idle
  | updating (orderId : Text) (id : JsNumber) (status : String)
  /-- The UPDATE has committed and its reply is on the way. -/
  | updated (orderId : Text) (id : OrderId) (status : String)
  /-- The event is out; `findOne` is next. -/
  | reading (orderId : Text)
  | returned (order : OrderResponse)
  | threw (failure : Failure)
  deriving DecidableEq

def Phase.isWaiting : Phase → Bool
  | updated _ _ _ => true
  | _ => false

/-- The call has an UPDATE behind it. -/
def Phase.hasUpdated : Phase → Bool
  | idle | updating _ _ _ => false
  | _ => true

structure Update where
  call : Call
  orderId : OrderId
  status : String
  deriving DecidableEq

structure State where
  orders : OrderId → Option Order
  events : OrderEvents.State
  calls : Call → Phase
  /-- The UPDATEs that have changed a row, in the order of their COMMITs. -/
  updates : List Update

inductive Action where
  | updateStatus (call : Call) (orderId : Text) (status : String)
  | update (call : Call)
  | reply (call : Call)
  | findOne (call : Call)
  /-- The statement that the call waits for fails. -/
  | fail (call : Call)
  /-- A client connects, joins or leaves. -/
  | listen (action : OrderEvents.Action)

section Steps

variable (number : Text → JsNumber) (state : State) (call : Call)

def State.init (orders : OrderId → Option Order) : State where
  orders := orders
  events := .init
  calls := fun _ => .idle
  updates := []

def State.goto (phase : Phase) : State :=
  { state with calls := Function.update state.calls call phase }

/-- The row with this `id`. -/
def State.find (id : Int) : Option (OrderId × Order) :=
  if 0 ≤ id then (state.orders id.toNat).map fun order => (id.toNat, order) else none

def updateStatus (orderId : Text) (status : String) : Option State :=
  match state.calls call with
  | .idle =>
      if (number orderId).isNaN then some (state.goto call (.threw (.orderNotFound orderId)))
      else some (state.goto call (.updating orderId (number orderId) status))
  | _ => none

/-- `UPDATE orders SET status = … WHERE id = …`. No row means `affected = 0`. -/
def update : Option State :=
  match state.calls call with
  | .updating orderId id status =>
      match id.toInt4 with
      | none => some (state.goto call (.threw .internal))
      | some value =>
          match state.find value with
          | none => some (state.goto call (.threw (.orderNotFound orderId)))
          | some (id, order) =>
              some { (state.goto call (.updated orderId id status)) with
                orders := Function.update state.orders id (some { order with status := status })
                updates := state.updates ++ [⟨call, id, status⟩] }
  | _ => none

def reply : Option State :=
  match state.calls call with
  | .updated orderId id status =>
      some { (state.goto call (.reading orderId)) with
        events := OrderEvents.emitStatusChanged state.events id status }
  | _ => none

def findOne : Option State :=
  match state.calls call with
  | .reading orderId =>
      if (number orderId).isNaN then some (state.goto call (.threw (.orderNotFound orderId)))
      else
        match (number orderId).toInt4 with
        | none => some (state.goto call (.threw .internal))
        | some value =>
            match state.find value with
            | none => some (state.goto call (.threw (.orderNotFound orderId)))
            | some (_, order) => some (state.goto call (.returned (toResponse order)))
  | _ => none

def fail : Option State :=
  match state.calls call with
  | .updating _ _ _ | .reading _ => some (state.goto call (.threw .internal))
  | _ => none

def listen (action : OrderEvents.Action) : Option State :=
  match action with
  | .emitStatusChanged _ _ => none
  | _ => (OrderEvents.step state.events action).map fun events => { state with events := events }

end Steps

def step (number : Text → JsNumber) (state : State) : Action → Option State
  | .updateStatus call orderId status => updateStatus number state call orderId status
  | .update call => update state call
  | .reply call => reply state call
  | .findOne call => findOne number state call
  | .fail call => fail state call
  | .listen action => listen state action

/-! ### The order of the replies -/

def updatesOf (id : OrderId) (updates : List Update) : List Update :=
  updates.filter fun update => update.orderId = id

def State.awaits (state : State) (update : Update) : Bool := (state.calls update.call).isWaiting

/-- A reply that leaves no other reply of its order outstanding is the one of the last UPDATE, or at
least of one with the same status. -/
def LastReplyLast (state : State) : Action → Prop
  | .reply call =>
      match state.calls call with
      | .updated _ id status =>
          (∃ update ∈ updatesOf id state.updates, update.call ≠ call ∧ state.awaits update) ∨
            (updatesOf id state.updates).getLast?.map Update.status = some status
      | _ => True
  | _ => True

instance (state : State) (action : Action) : Decidable (LastReplyLast state action) := by
  unfold LastReplyLast
  split
  · split <;> infer_instance
  · infer_instance

structure Inv (state : State) : Prop where
  events : OrderEvents.Inv state.events
  nodup : (state.updates.map Update.call).Nodup
  waiting : ∀ call orderId id status, state.calls call = .updated orderId id status →
    ⟨call, id, status⟩ ∈ state.updates
  done : ∀ update ∈ state.updates, (state.calls update.call).hasUpdated = true
  stored : ∀ id order update, state.orders id = some order →
    (updatesOf id state.updates).getLast? = some update → order.status = update.status
  pushed : ∀ id, (∃ update ∈ updatesOf id state.updates, state.awaits update) ∨
    (updatesOf id state.updates).getLast?.map Update.status =
      (ofOrder id state.events.emitted).getLast?.map OrderStatusEvent.status

theorem inv_init (orders : OrderId → Option Order) : Inv (State.init orders) where
  events := OrderEvents.inv_init
  nodup := List.nodup_nil
  waiting _ _ _ _ hphase := by cases hphase
  done _ hmem := absurd hmem List.not_mem_nil
  stored _ _ _ _ hlast := by cases hlast
  pushed _ := .inr rfl

variable {number : Text → JsNumber} {before after state : State} {action : Action} {call : Call}

theorem mem_of_mem_updatesOf {id : OrderId} {update : Update} {updates : List Update}
    (hmem : update ∈ updatesOf id updates) : update ∈ updates ∧ update.orderId = id := by
  rw [updatesOf, List.mem_filter, decide_eq_true_eq] at hmem
  exact hmem

/-- A call that neither waits for a reply nor starts to: nothing changes but its phase. -/
theorem Inv.goto {phase : Phase} (hinv : Inv before)
    (hbefore : (before.calls call).isWaiting = false) (hphase : phase.isWaiting = false)
    (hdone : (before.calls call).hasUpdated = true → phase.hasUpdated = true) :
    Inv (before.goto call phase) where
  events := hinv.events
  nodup := hinv.nodup
  waiting other orderId id status hother := by
    have hother : Function.update before.calls call phase other =
        .updated orderId id status := hother
    by_cases heq : other = call
    · rw [heq, Function.update_self] at hother
      rw [hother] at hphase
      cases hphase
    · rw [Function.update_of_ne heq] at hother
      exact hinv.waiting other orderId id status hother
  done update hmem := by
    have hold := hinv.done update hmem
    change (Function.update before.calls call phase update.call).hasUpdated = true
    by_cases heq : update.call = call
    · rw [heq, Function.update_self]
      rw [heq] at hold
      exact hdone hold
    · rwa [Function.update_of_ne heq]
  stored := hinv.stored
  pushed id := by
    rcases hinv.pushed id with ⟨update, hmem, hawaits⟩ | hlast
    · refine .inl ⟨update, hmem, ?_⟩
      have hne : update.call ≠ call := by
        intro heq
        rw [State.awaits, heq, hbefore] at hawaits
        cases hawaits
      change (Function.update before.calls call phase update.call).isWaiting = true
      rwa [Function.update_of_ne hne]
    · exact .inr hlast

theorem updatesOf_append (id : OrderId) (updates : List Update) (update : Update) :
    updatesOf id (updates ++ [update]) =
      updatesOf id updates ++ if update.orderId = id then [update] else [] := by
  by_cases horder : update.orderId = id <;> simp [updatesOf, horder]

/-- An UPDATE commits: it is the last one of its order, and not answered yet. -/
theorem Inv.update {orderId : Text} {number : JsNumber} {status : String} {id : OrderId}
    {order : Order} (hinv : Inv before)
    (hphase : before.calls call = .updating orderId number status) :
    Inv { (before.goto call (.updated orderId id status)) with
      orders := Function.update before.orders id (some { order with status := status })
      updates := before.updates ++ [⟨call, id, status⟩] } := by
  have hfresh : ∀ update ∈ before.updates, update.call ≠ call := by
    intro update hmem heq
    have hdone := hinv.done update hmem
    rw [heq, hphase] at hdone
    cases hdone
  refine ⟨hinv.events, ?_, ?_, ?_, ?_, ?_⟩
  · rw [List.map_append, List.nodup_append]
    refine ⟨hinv.nodup, List.nodup_singleton _, ?_⟩
    intro left hleft right hright heq
    obtain ⟨update, hmem, rfl⟩ := List.mem_map.mp hleft
    rw [List.map_singleton, List.mem_singleton] at hright
    exact hfresh update hmem (heq.trans hright)
  · intro other orderId' id' status' hother
    have hother : Function.update before.calls call (.updated orderId id status) other =
      .updated orderId' id' status' := hother
    by_cases heq : other = call
    · rw [heq, Function.update_self] at hother
      cases hother
      rw [heq]
      exact List.mem_append_right _ List.mem_cons_self
    · rw [Function.update_of_ne heq] at hother
      exact List.mem_append_left _ (hinv.waiting other orderId' id' status' hother)
  · intro update hmem
    change (Function.update before.calls call _ update.call).hasUpdated = true
    rcases List.mem_append.mp hmem with hold | hnew
    · rw [Function.update_of_ne (hfresh update hold)]
      exact hinv.done update hold
    · rw [List.mem_singleton.mp hnew, Function.update_self]
      rfl
  · intro other order' update horder hlast
    have horder : Function.update before.orders id (some { order with status := status }) other =
      some order' := horder
    have hlast : (updatesOf other (before.updates ++ [⟨call, id, status⟩])).getLast? =
        some update :=
      hlast
    rw [updatesOf_append] at hlast
    by_cases heq : other = id
    · rw [heq, Function.update_self] at horder
      rw [if_pos heq.symm, List.getLast?_concat] at hlast
      cases horder
      cases hlast
      rfl
    · rw [Function.update_of_ne heq] at horder
      rw [if_neg (Ne.symm heq), List.append_nil] at hlast
      exact hinv.stored other order' update horder hlast
  · intro other
    by_cases heq : id = other
    · refine .inl ⟨⟨call, id, status⟩, ?_, ?_⟩
      · rw [updatesOf_append, if_pos heq]
        exact List.mem_append_right _ List.mem_cons_self
      · change (Function.update before.calls call (.updated orderId id status)
          call).isWaiting = true
        rw [Function.update_self]
        rfl
    · rcases hinv.pushed other with ⟨update, hmem, hawaits⟩ | hlast
      · refine .inl ⟨update, ?_, ?_⟩
        · rw [updatesOf_append]
          exact List.mem_append_left _ hmem
        · have hne := hfresh update (mem_of_mem_updatesOf hmem).1
          change (Function.update before.calls call (.updated orderId id status)
            update.call).isWaiting = true
          rwa [Function.update_of_ne hne]
      · refine .inr ?_
        rw [updatesOf_append, if_neg heq, List.append_nil]
        exact hlast

theorem ofOrder_emit (events : OrderEvents.State) (orderId other : OrderId) (status : String) :
    (ofOrder other (OrderEvents.emitStatusChanged events orderId status).emitted).getLast?.map
        OrderStatusEvent.status =
      if orderId = other then some status
      else (ofOrder other events.emitted).getLast?.map OrderStatusEvent.status := by
  change (ofOrder other (events.emitted ++ [_])).getLast?.map OrderStatusEvent.status = _
  rw [ofOrder, List.filter_append]
  by_cases heq : orderId = other
  · rw [if_pos heq, List.filter_cons_of_pos, List.filter_nil, List.getLast?_concat]
    · rfl
    · simpa [OrderEvents.OrderEventsService.emitStatusChanged] using heq
  · rw [if_neg heq, List.filter_cons_of_neg, List.filter_nil, List.append_nil]
    · rfl
    · simpa [OrderEvents.OrderEventsService.emitStatusChanged] using heq

/-- The reply of an UPDATE is handled. -/
theorem Inv.reply {orderId : Text} {id : OrderId} {status : String} (hinv : Inv before)
    (hphase : before.calls call = .updated orderId id status)
    (hlast : (∃ update ∈ updatesOf id before.updates, update.call ≠ call ∧ before.awaits update) ∨
      (updatesOf id before.updates).getLast?.map Update.status = some status) :
    Inv { (before.goto call (.reading orderId)) with
      events := OrderEvents.emitStatusChanged before.events id status } := by
  have hmem := hinv.waiting call orderId id status hphase
  have hawaits : ∀ update : Update, update.call ≠ call → before.awaits update = true →
      (Function.update before.calls call (.reading orderId) update.call).isWaiting = true := by
    intro update hne hupdate
    rwa [Function.update_of_ne hne]
  refine ⟨?_, hinv.nodup, ?_, ?_, hinv.stored, ?_⟩
  · have hemit : OrderEvents.step before.events (.emitStatusChanged id status) =
        some (OrderEvents.emitStatusChanged before.events id status) := rfl
    exact hinv.events.step hemit
  · intro other orderId' id' status' hother
    have hother : Function.update before.calls call (.reading orderId) other =
      .updated orderId' id' status' := hother
    by_cases heq : other = call
    · rw [heq, Function.update_self] at hother
      cases hother
    · rw [Function.update_of_ne heq] at hother
      exact hinv.waiting other orderId' id' status' hother
  · intro update hupdate
    change (Function.update before.calls call _ update.call).hasUpdated = true
    by_cases heq : update.call = call
    · rw [heq, Function.update_self]
      rfl
    · rw [Function.update_of_ne heq]
      exact hinv.done update hupdate
  · intro other
    have hemitted := ofOrder_emit before.events id other status
    by_cases heq : id = other
    · rw [if_pos heq] at hemitted
      rcases hlast with ⟨update, hupdate, hne, hwaits⟩ | hsame
      · exact .inl ⟨update, heq ▸ hupdate, hawaits update hne hwaits⟩
      · exact .inr ((heq ▸ hsame).trans hemitted.symm)
    · rw [if_neg heq] at hemitted
      rcases hinv.pushed other with ⟨update, hupdate, hwaits⟩ | hsame
      · refine .inl ⟨update, hupdate, hawaits update ?_ hwaits⟩
        -- the only update of `call` is one of the order `id`
        intro hcall
        obtain ⟨hupdate, hother⟩ := mem_of_mem_updatesOf hupdate
        rw [List.inj_on_of_nodup_map hinv.nodup hupdate hmem hcall] at hother
        exact heq hother
      · exact .inr (hsame.trans hemitted.symm)

/-- The condition is exact: the reply of an UPDATE that is not the last one, handled when no other
one is outstanding, leaves the bus with a status that is not the stored one. -/
theorem Inv.reply_exact {orderId : Text} {id : OrderId} {status : String} {order : Order}
    (hinv : Inv before) (hphase : before.calls call = .updated orderId id status)
    (horder : before.orders id = some order) (hnot : ¬ LastReplyLast before (.reply call)) :
    ∃ event, (ofOrder id (OrderEvents.emitStatusChanged before.events id status).emitted).getLast? =
        some event ∧ event.status ≠ order.status := by
  simp only [LastReplyLast, hphase, not_or] at hnot
  have hemitted := ofOrder_emit before.events id id status
  rw [if_pos rfl] at hemitted
  obtain ⟨event, hevent, hstatus⟩ := Option.map_eq_some_iff.mp hemitted
  refine ⟨event, hevent, fun hsame => hnot.2 ?_⟩
  have hmem : ⟨call, id, status⟩ ∈ updatesOf id before.updates := by
    rw [updatesOf, List.mem_filter]
    exact ⟨hinv.waiting call orderId id status hphase, decide_eq_true rfl⟩
  have hlast := List.getLast?_eq_getLast_of_ne_nil (List.ne_nil_of_mem hmem)
  generalize (updatesOf id before.updates).getLast _ = last at hlast
  rw [hlast, Option.map_some, ← hinv.stored id order last horder hlast, ← hsame, hstatus]

theorem Inv.step (hinv : Inv before) (hlast : LastReplyLast before action)
    (hstep : step number before action = some after) : Inv after := by
  cases action with
  | updateStatus call orderId status =>
      simp only [UpdateStatus.step, updateStatus] at hstep
      split at hstep
      case h_2 => cases hstep
      rename_i hphase
      have hwaiting : (before.calls call).isWaiting = false := by rw [hphase]; rfl
      have hdone : (before.calls call).hasUpdated ≠ true := by rw [hphase]; exact nofun
      split at hstep <;> cases hstep
      · exact hinv.goto hwaiting rfl fun _ => rfl
      · exact hinv.goto hwaiting rfl fun hupdated => absurd hupdated hdone
  | update call =>
      simp only [UpdateStatus.step, UpdateStatus.update] at hstep
      split at hstep
      case h_2 => cases hstep
      rename_i orderId id status hphase
      have hwaiting : (before.calls call).isWaiting = false := by rw [hphase]; rfl
      split at hstep
      · cases hstep
        exact hinv.goto hwaiting rfl fun _ => rfl
      · split at hstep <;> cases hstep
        · exact hinv.goto hwaiting rfl fun _ => rfl
        · exact hinv.update hphase
  | reply call =>
      simp only [UpdateStatus.step, UpdateStatus.reply] at hstep
      split at hstep <;> cases hstep
      rename_i orderId id status hphase
      simp only [LastReplyLast, hphase] at hlast
      exact hinv.reply hphase hlast
  | findOne call =>
      simp only [UpdateStatus.step, findOne] at hstep
      split at hstep
      case h_2 => cases hstep
      rename_i orderId hphase
      have hwaiting : (before.calls call).isWaiting = false := by rw [hphase]; rfl
      split at hstep
      · cases hstep
        exact hinv.goto hwaiting rfl fun _ => rfl
      · split at hstep
        · cases hstep
          exact hinv.goto hwaiting rfl fun _ => rfl
        · split at hstep <;> cases hstep
          · exact hinv.goto hwaiting rfl fun _ => rfl
          · exact hinv.goto hwaiting rfl fun _ => rfl
  | fail call =>
      simp only [UpdateStatus.step, fail] at hstep
      split at hstep <;> cases hstep
      · rename_i hphase
        exact hinv.goto (by rw [hphase]; rfl) rfl fun _ => rfl
      · rename_i hphase
        exact hinv.goto (by rw [hphase]; rfl) rfl fun _ => rfl
  | listen action =>
      simp only [UpdateStatus.step, listen] at hstep
      split at hstep
      case h_1 => cases hstep
      rename_i hlisten
      obtain ⟨events, hevents, rfl⟩ := Option.map_eq_some_iff.mp hstep
      have hemitted : events.emitted = before.events.emitted := by
        cases action with
        | emitStatusChanged orderId status => exact absurd rfl (hlisten orderId status)
        | streamEvents id orderId lastEventId =>
            simp only [OrderEvents.step, OrderEvents.streamEvents] at hevents
            split at hevents <;> cases hevents
            rfl
        | join id orderId =>
            simp only [OrderEvents.step, OrderEvents.join] at hevents
            split at hevents <;> cases hevents
            rfl
        | close id =>
            simp only [OrderEvents.step, OrderEvents.close] at hevents
            split at hevents
            case h_2 => cases hevents
            split at hevents <;> cases hevents
            rfl
      refine ⟨hinv.events.step hevents, hinv.nodup, hinv.waiting, hinv.done, hinv.stored, ?_⟩
      intro id
      have hpushed := hinv.pushed id
      rw [← hemitted] at hpushed
      exact hpushed

/-- What is pushed last is what is stored, on the bus and at every client that is connected. -/
structure LastPushed (state : State) : Prop where
  pushed : ∀ id, updatesOf id state.updates ≠ [] → ofOrder id state.events.emitted ≠ []
  bus : ∀ id order event, state.orders id = some order →
    (ofOrder id state.events.emitted).getLast? = some event → event.status = order.status
  clients : ∀ id connection order event, state.events.connections id = some connection →
    connection.closedAt = none → state.orders connection.orderId = some order →
    connection.received.getLast? = some event → event.status = order.status

theorem lastPushed_of_inv (hinv : Inv state)
    (hover : ∀ call, (state.calls call).isWaiting = false) : LastPushed state := by
  have hsame : ∀ id, (updatesOf id state.updates).getLast?.map Update.status =
      (ofOrder id state.events.emitted).getLast?.map OrderStatusEvent.status := by
    intro id
    rcases hinv.pushed id with ⟨update, _, hawaits⟩ | hlast
    · rw [State.awaits, hover] at hawaits
      cases hawaits
    · exact hlast
  have hbus : ∀ id order event, state.orders id = some order →
      (ofOrder id state.events.emitted).getLast? = some event → event.status = order.status := by
    intro id order event horder hevent
    have hpushed := hsame id
    rw [hevent] at hpushed
    obtain ⟨update, hupdate, hstatus⟩ := Option.map_eq_some_iff.mp hpushed
    rw [hinv.stored id order update horder hupdate, hstatus]
  refine ⟨?_, hbus, ?_⟩
  · intro id hupdates hnone
    have hpushed := hsame id
    rw [hnone, List.getLast?_nil, Option.map_none, Option.map_eq_none_iff,
      List.getLast?_eq_none_iff] at hpushed
    exact hupdates hpushed
  · intro id connection order event hconnection hopen horder hevent
    have hfollows := (hinv.events.follows id connection hconnection).received
    rw [OrderEvents.Connection.before_of_open hopen] at hfollows
    obtain ⟨front, hfront⟩ := NumberedLog.follow_suffix connection.wanted
      (connection.source.start connection.openedAt) state.events.emitted
    rw [← hfollows] at hfront
    refine hbus connection.orderId order event horder ?_
    have hown : ofOrder connection.orderId state.events.emitted = front ++ connection.received :=
      hfront.symm
    rw [hown, List.getLast?_append, hevent, Option.some_or]

/-- If the last reply of an order is always the one of its last UPDATE, the last status pushed is
the one stored. -/
theorem updateStatus_last_pushed (number : Text → JsNumber) (orders : OrderId → Option Order)
    {state : State} (hreach : Reach (step number) LastReplyLast (State.init orders) state)
    (hover : ∀ call, (state.calls call).isWaiting = false) : LastPushed state :=
  lastPushed_of_inv (Reach.invariant Inv (inv_init orders)
    (fun _ _ _ _ hinv hlast hstep => hinv.step hlast hstep) hreach) hover

def oneOrder (id : OrderId) : Option Order :=
  if id = 5 then some ⟨5, some 1, "a@shop.test", "created", 100, "UAH", []⟩ else none

def orderFive : Text → JsNumber := fun _ => .integer 5

/-- Two UPDATEs of order 5, which somebody listens to. -/
def twoUpdates : List Action :=
  [.updateStatus 0 ['5'] "paid", .updateStatus 1 ['5'] "shipped", .listen (.streamEvents 0 5 0),
    .update 0, .update 1]

/-- The second reply overtakes the first. -/
def overtakenTrace : List Action :=
  twoUpdates ++ [.reply 1, .reply 0, .findOne 0, .findOne 1]

theorem overtaken_not_last_pushed :
    ∃ state, Reachable (step orderFive) (State.init oneOrder) state ∧
      state.calls 0 = .returned ⟨['5'], [], 100, "UAH", "shipped"⟩ ∧
      state.calls 1 = .returned ⟨['5'], [], 100, "UAH", "shipped"⟩ ∧ ¬ LastPushed state := by
  obtain ⟨state, hreach, hcheck⟩ :
      ∃ state, Reachable (step orderFive) (State.init oneOrder) state ∧
        decide ((state.calls 0 = .returned ⟨['5'], [], 100, "UAH", "shipped"⟩ ∧
          state.calls 1 = .returned ⟨['5'], [], 100, "UAH", "shipped"⟩) ∧
          (state.orders 5).map Order.status = some "shipped" ∧
          (ofOrder 5 state.events.emitted).getLast? = some ⟨2, 5, "paid"⟩) = true :=
    exists_reach_of_runWithin overtakenTrace (by decide +kernel)
  obtain ⟨⟨hfirst, hsecond⟩, hstored, hpushed⟩ := of_decide_eq_true hcheck
  refine ⟨state, hreach, hfirst, hsecond, fun hlast => ?_⟩
  obtain ⟨order, horder, hstatus⟩ := Option.map_eq_some_iff.mp hstored
  have hsame := hlast.bus 5 order _ horder hpushed
  rw [hstatus] at hsame
  exact absurd hsame (by decide)

/-- The same calls, their replies in order. -/
theorem updateStatus_last_pushed_inOrder :
    ∃ state, (∀ call, (state.calls call).isWaiting = false) ∧
      (state.events.connections 0).map (fun connection => connection.received) =
        some [⟨1, 5, "paid"⟩, ⟨2, 5, "shipped"⟩] ∧ LastPushed state := by
  obtain ⟨state, hreach, hcheck⟩ :
      ∃ state, Reach (step orderFive) LastReplyLast (State.init oneOrder) state ∧
        decide (((state.calls 0).isWaiting = false ∧ (state.calls 1).isWaiting = false ∧
          state.updates.map Update.call = [0, 1]) ∧
          (state.events.connections 0).map (fun connection => connection.received) =
            some [⟨1, 5, "paid"⟩, ⟨2, 5, "shipped"⟩]) = true :=
    exists_reach_of_runWithin (twoUpdates ++ [.reply 0, .reply 1, .findOne 1, .findOne 0])
      (by decide +kernel)
  obtain ⟨⟨hfirst, hsecond, hcalls⟩, hreceived⟩ := of_decide_eq_true hcheck
  have hover : ∀ call, (state.calls call).isWaiting = false := by
    intro call
    have hinv := Reach.invariant Inv (inv_init oneOrder)
      (fun _ _ _ _ hinv hlast hstep => hinv.step hlast hstep) hreach
    cases hphase : state.calls call with
    | updated orderId id status =>
        have hmem : call ∈ state.updates.map Update.call :=
          List.mem_map_of_mem (hinv.waiting call orderId id status hphase)
        rw [hcalls] at hmem
        rcases List.mem_pair.mp hmem with rfl | rfl
        · rw [← hphase]
          exact hfirst
        · rw [← hphase]
          exact hsecond
    | _ => rfl
  exact ⟨state, hover, hreceived, updateStatus_last_pushed orderFive oneOrder hreach hover⟩

end Marketplace.UpdateStatus
