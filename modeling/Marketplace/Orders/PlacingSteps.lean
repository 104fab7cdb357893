import Marketplace.Orders.PlacingRows

/-!
# Which orders there are

The transitions of a call, as far as its order and its outbox row go. Nothing here depends on what
the request contains.
-/

namespace Marketplace.Placing

open Checkout (JsNumber)
open ReadCommitted

variable {number : Text → JsNumber} {before after state : State} {call : Call} {source : Source}
  {orderId : OrderId} {action : Action} {phase next : Phase}

/-- The order whose outbox row the open transaction has inserted. -/
def Phase.enqueued : Phase → Option OrderId
  | linking _ id | committing _ id => some id
  | _ => none

/-- The order that the call has placed. -/
def Phase.order : Phase → Option OrderId
  | placed _ id => some id
  | _ => none

/-- What a step does to the phase of its call, as far as the outbox row goes. -/
inductive Turn : Action → Phase → Phase → Prop
  | kept (action : Action) (phase next : Phase)
      (haction : ∀ call occurredAt now, action ≠ .enqueue call occurredAt now)
      (hthrew : next ≠ .threw) (horder : phase.order = none) (hnext : next.order = none)
      (henqueued : next.enqueued = phase.enqueued) :
      Turn action phase next
  | enqueued (call : Call) (occurredAt now : Nat) (idempotent : Bool) (source : Source)
      (orderId : OrderId) (next : Phase) (hnext : next.order = none)
      (henqueued : next.enqueued = some orderId) :
      Turn (.enqueue call occurredAt now) (.enqueuing idempotent source orderId) next
  | committed (call : Call) (source : Source) (orderId : OrderId) :
      Turn (.commit call) (.committing source orderId) (.placed source orderId)
  | threw (action : Action) (phase : Phase)
      (haction : ∀ call occurredAt now, action ≠ .enqueue call occurredAt now)
      (hopen : phase.isOpen = true) : Turn action phase .threw

theorem Turn.order_eq_none (hturn : Turn action phase next) : phase.order = none := by
  cases hturn with
  | kept action phase next haction hthrew horder hnext henqueued => exact horder
  | enqueued call occurredAt now idempotent source orderId next hnext henqueued => rfl
  | committed call source orderId => rfl
  | threw action phase haction hopen =>
      cases phase <;> simp_all [Phase.isOpen, Phase.order]

/-- What a step does to `orders`. -/
inductive Saves (orders : Inserts Call OrderRow) (call : Call) (phase : Phase) :
    Phase → Inserts Call OrderRow → Prop
  | kept (next : Phase) (hwritten : next.written = phase.written) :
      Saves orders call phase next orders
  | saved (next : Phase) (source : Source) (orderId : OrderId) (hnone : phase.written = none)
      (hwritten : next.written = some (source, orderId)) :
      Saves orders call phase next (orders.insert call (source.orderRow orderId))
  | threw : Saves orders call phase .threw (orders.rollback call)

theorem step_turns (hstep : step number before action = some after) :
    ∃ next, after.calls = Function.update before.calls action.caller next ∧
      Turn action (before.calls action.caller) next ∧
      Saves before.orders action.caller (before.calls action.caller) next after.orders := by
  cases action with
  | create call dto userId =>
      simp only [step, create] at hstep
      split at hstep <;> cases hstep
      rename_i hphase
      exact ⟨_, rfl, hphase ▸ .kept _ _ _ (by simp) (by simp) rfl rfl rfl, hphase ▸ .kept _ rfl⟩
  | createIdempotent call dto userId =>
      simp only [step, createIdempotent] at hstep
      split at hstep <;> cases hstep
      rename_i hphase
      exact ⟨_, rfl, hphase ▸ .kept _ _ _ (by simp) (by simp) rfl rfl rfl, hphase ▸ .kept _ rfl⟩
  | claim call claimed =>
      simp only [step, claim] at hstep
      split at hstep
      case h_2 => cases hstep
      rename_i hphase
      split at hstep <;> cases hstep
      all_goals exact ⟨_, rfl, hphase ▸ .kept _ _ _ (by simp) (by simp) rfl rfl rfl,
        hphase ▸ .kept _ rfl⟩
  | findProduct call product =>
      simp only [step, findProduct] at hstep
      split at hstep
      case h_2 => cases hstep
      rename_i idempotent dto userId item rest cart hphase
      split at hstep
      · cases hstep
        exact ⟨_, rfl, hphase ▸ .threw _ _ (by simp) rfl, .threw⟩
      split at hstep
      · cases hstep
        exact ⟨_, rfl, hphase ▸ .threw _ _ (by simp) rfl, .threw⟩
      · split at hstep <;> cases hstep
        exact ⟨_, rfl, hphase ▸ .kept _ _ _ (by simp) (by simp) rfl rfl rfl, hphase ▸ .kept _ rfl⟩
      · cases hstep
  | save call =>
      simp only [step, save] at hstep
      split at hstep
      case h_2 => cases hstep
      rename_i idempotent dto userId cart hphase
      split at hstep <;> cases hstep
      exact ⟨_, rfl, hphase ▸ .kept _ _ _ (by simp) (by simp) rfl rfl rfl,
        hphase ▸ .saved _ _ _ rfl rfl⟩
  | checkout call purchase =>
      simp only [step, checkout] at hstep
      split at hstep <;> cases hstep
      rename_i hphase
      exact ⟨_, rfl, hphase ▸ .kept _ _ _ (by simp) (by simp) rfl rfl rfl, hphase ▸ .kept _ rfl⟩
  | takeStock call priceCents =>
      simp only [step, takeStock] at hstep
      split at hstep
      case h_2 => cases hstep
      rename_i purchase hphase
      split at hstep <;> cases hstep
      exact ⟨_, rfl, hphase ▸ .kept _ _ _ (by simp) (by simp) rfl rfl rfl, hphase ▸ .kept _ rfl⟩
  | takeBalance call customerEmail =>
      simp only [step, takeBalance] at hstep
      split at hstep
      case h_2 => cases hstep
      rename_i sale hphase
      split at hstep <;> cases hstep
      exact ⟨_, rfl, hphase ▸ .kept _ _ _ (by simp) (by simp) rfl rfl rfl, hphase ▸ .kept _ rfl⟩
  | saveOrder call =>
      simp only [step, saveOrder] at hstep
      split at hstep <;> cases hstep
      rename_i sale customerEmail hphase
      exact ⟨_, rfl, hphase ▸ .kept _ _ _ (by simp) (by simp) rfl rfl rfl,
        hphase ▸ .saved _ _ _ rfl rfl⟩
  | saveItem call =>
      simp only [step, saveItem] at hstep
      split at hstep <;> cases hstep
      rename_i sale customerEmail orderId hphase
      exact ⟨_, rfl, hphase ▸ .kept _ _ _ (by simp) (by simp) rfl rfl rfl, hphase ▸ .kept _ rfl⟩
  | saveJob call =>
      simp only [step, saveJob] at hstep
      split at hstep <;> cases hstep
      rename_i sale customerEmail orderId hphase
      exact ⟨_, rfl, hphase ▸ .kept _ _ _ (by simp) (by simp) rfl rfl rfl, hphase ▸ .kept _ rfl⟩
  | enqueue call occurredAt now =>
      simp only [step, enqueue] at hstep
      split at hstep <;> cases hstep
      rename_i idempotent source orderId hphase
      refine ⟨_, rfl, hphase ▸ .enqueued call occurredAt now idempotent source orderId _ ?_ ?_,
        hphase ▸ .kept _ ?_⟩
      all_goals cases idempotent <;> simp [Phase.order, Phase.enqueued, Phase.written]
  | link call =>
      simp only [step, link] at hstep
      split at hstep <;> cases hstep
      rename_i source orderId hphase
      exact ⟨_, rfl, hphase ▸ .kept _ _ _ (by simp) (by simp) rfl rfl rfl, hphase ▸ .kept _ rfl⟩
  | commit call =>
      simp only [step, commit] at hstep
      split at hstep <;> cases hstep
      rename_i source orderId hphase
      exact ⟨_, rfl, hphase ▸ .committed call source orderId, hphase ▸ .kept _ rfl⟩
  | abort call =>
      simp only [step, abort] at hstep
      split at hstep <;> cases hstep
      rename_i hopen
      exact ⟨_, rfl, .threw _ _ (by simp) hopen, .threw⟩

theorem eventData_orderId (source : Source) (id : OrderId) :
    (source.eventData id).orderId = id := by
  cases source <;> rfl

/-- Every order row is the one of its call, whatever has been asked for. -/
theorem tracks_orders_step (htracks : before.orders.Tracks OrdersOk before.calls)
    (hstep : step number before action = some after) :
    after.orders.Tracks OrdersOk after.calls := by
  obtain ⟨next, hcalls, -, hsaves⟩ := step_turns hstep
  rw [hcalls]
  generalize horders : after.orders = orders at hsaves
  generalize hphase : before.calls action.caller = phase at hsaves
  cases hsaves with
  | kept next hwritten =>
      apply htracks.keep
      intro rows hrows
      rwa [OrdersOk, hwritten, ← hphase]
  | saved next source orderId hnone hwritten =>
      apply htracks.insert
      intro rows hrows
      rw [hphase, OrdersOk, hnone] at hrows
      rw [hrows, OrdersOk, hwritten]
      rfl
  | threw => exact htracks.rollback rfl

/-- A committed order is one that some call has placed, and the other way round. -/
theorem mem_committedOrders (htracks : state.orders.Tracks OrdersOk state.calls)
    {order : OrderRow} :
    order ∈ state.committedOrders ↔
      ∃ call source orderId, state.calls call = .placed source orderId ∧
        order = source.orderRow orderId := by
  constructor
  · intro horder
    obtain ⟨⟨call, row⟩, hentry, rfl⟩ := List.mem_map.mp horder
    obtain ⟨hmem, hclosed⟩ := List.mem_filter.mp hentry
    have hrows := htracks call
    have hwritten := Inserts.mem_ofTx.mpr hmem
    cases hphase : state.calls call with
    | placed source orderId =>
        rw [hphase] at hrows
        rw [show state.orders.ofTx call = [source.orderRow orderId] from hrows] at hwritten
        exact ⟨call, source, orderId, hphase, List.mem_singleton.mp hwritten⟩
    | idle | replayed | threw =>
        rw [hphase] at hrows
        rw [show state.orders.ofTx call = [] from hrows] at hwritten
        cases hwritten
    | _ => simp [State.isOpen, hphase, Phase.isOpen] at hclosed
  · rintro ⟨call, source, orderId, hphase, rfl⟩
    have hrows := htracks call
    rw [hphase] at hrows
    refine List.mem_map.mpr ⟨(call, source.orderRow orderId), List.mem_filter.mpr ⟨?_, ?_⟩, rfl⟩
    · rw [← Inserts.mem_ofTx, show state.orders.ofTx call = [source.orderRow orderId] from hrows]
      exact List.mem_singleton_self _
    · simp [State.isOpen, hphase, Phase.isOpen]

end Marketplace.Placing
