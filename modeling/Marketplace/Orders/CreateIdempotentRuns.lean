import Marketplace.Orders.CreateIdempotent

/-!
# What a step of `createIdempotent` can do

The inversion of `step`: every transition with the state it leads to. The lemmas about keys, orders
and outbox rows are proved from it.
-/

namespace Marketplace.Orders

open ReadCommitted ReadCommitted.Table Transition

variable {Digest : Type} [DecidableEq Digest]

inductive Runs (requestHash : CreateOrderDto → Digest) (before : State Digest) (action : Action) :
    Call → Phase Digest → State Digest → Prop
  | began (call : Call) (request : Request) (haction : action = .createIdempotent call request) :
      Runs requestHash before action call .idle (before.goto call (.claiming request))
  | claimed (call : Call) (request : Request)
      (houtcome : before.keys.insertOutcome call request.idempotencyKey = .inserted) :
      Runs requestHash before action call (.claiming request)
        { (before.goto call (.pricing request request.dto.items [] 0 "UAH")) with
          keys := before.keys.put call request.idempotencyKey
            (some ⟨requestHash request.dto, none⟩) }
  | conflicted (call : Call) (request : Request)
      (houtcome : before.keys.insertOutcome call request.idempotencyKey = .conflict) :
      Runs requestHash before action call (.claiming request)
        (before.goto call (.conflicted request))
  | selected (call : Call) (request : Request) :
      Runs requestHash before action call (.conflicted request)
        (before.goto call (.replaying request (before.keys.view call request.idempotencyKey)))
  | priced (call : Call) (request : Request) (rest rest' : List OrderItemDto)
      (items items' : List OrderItem) (totalCents totalCents' : Int) (currency currency' : String) :
      Runs requestHash before action call (.pricing request rest items totalCents currency)
        (before.goto call (.pricing request rest' items' totalCents' currency'))
  | saved (call : Call) (request : Request) (items : List OrderItem) (totalCents : Int)
      (currency : String) (order : Order) (hid : order.id = before.nextOrderId)
      (howner : order.userId = request.userId) :
      Runs requestHash before action call (.pricing request [] items totalCents currency)
        { (before.goto call (.enqueuing request order)) with
          orders := before.orders.insert call order
          nextOrderId := before.nextOrderId + 1 }
  | enqueued (call : Call) (request : Request) (order : Order) (occurredAt now : Nat) :
      Runs requestHash before action call (.enqueuing request order)
        { (before.goto call (.linking request order)) with
          outbox :=
            before.outbox.insert call (enqueueOrderPlaced (eventData order) occurredAt now) }
  | linked (call : Call) (request : Request) (order : Order)
      (keys : Table Call Text (KeyRow Digest)) (hit : Bool)
      (hvisit : before.keys.visit call request.idempotencyKey (fun _ => true)
        ({ · with orderId := some order.id }) = some (keys, hit)) :
      Runs requestHash before action call (.linking request order)
        { (before.goto call (.committing request order)) with keys := keys }
  | committed (call : Call) (request : Request) (order : Order) :
      Runs requestHash before action call (.committing request order)
        { (before.goto call (.created request order)) with keys := before.keys.commit call }
  | replayCommitted (call : Call) (request : Request) (existing : Option (KeyRow Digest)) :
      Runs requestHash before action call (.replaying request existing)
        { (before.goto call (.existing request existing)) with keys := before.keys.commit call }
  | answered (call : Call) (request : Request) (order : Order) :
      Runs requestHash before action call (.created request order)
        (before.goto call (.returned request (toResponse order) false))
  | mismatched (call : Call) (request : Request) (row : KeyRow Digest)
      (hhash : row.requestHash ≠ requestHash request.dto) :
      Runs requestHash before action call (.existing request (some row))
        (before.goto call (.threw request .keyReused))
  | replayed (call : Call) (request : Request) (row : KeyRow Digest) (orderId : OrderId)
      (order : Order) (hhash : row.requestHash = requestHash request.dto)
      (hlink : row.orderId = some orderId) (hfind : findOne before orderId = some order) :
      Runs requestHash before action call (.existing request (some row))
        (before.goto call (.returned request (toResponse order) true))
  | lost (call : Call) (request : Request) (row : KeyRow Digest) (missing : Text)
      (hhash : row.requestHash = requestHash request.dto)
      (hmissing : ∀ orderId, row.orderId = some orderId → findOne before orderId = none) :
      Runs requestHash before action call (.existing request (some row))
        (before.goto call (.threw request (.orderNotFound missing)))
  | failed (call : Call) (request : Request) (existing : Option (KeyRow Digest))
      (hhash : ∀ row, existing = some row → row.requestHash = requestHash request.dto) :
      Runs requestHash before action call (.existing request existing)
        (before.goto call (.threw request .internal))
  | aborted (call : Call) (phase : Phase Digest) (request : Request) (failure : Failure)
      (hopen : phase.isOpen = true) (hrequest : phase.request = some request)
      (hfailure : failure = .internal ∨ ∃ productId, failure = .productNotFound productId) :
      Runs requestHash before action call phase (before.rollback call (.threw request failure))

theorem step_runs {requestHash : CreateOrderDto → Digest} {state after : State Digest}
    {action : Action} (hstep : step requestHash state action = some after) :
    ∃ call phase, state.calls call = phase ∧ Runs requestHash state action call phase after := by
  cases action with
  | createIdempotent call request =>
      simp only [step, createIdempotent] at hstep
      split at hstep <;> cases hstep
      rename_i hphase
      exact ⟨call, _, hphase, .began call request rfl⟩
  | claim call =>
      simp only [step, claim] at hstep
      split at hstep
      case h_2 => cases hstep
      rename_i request hphase
      split at hstep <;> cases hstep
      · rename_i houtcome
        exact ⟨call, _, hphase, .claimed call request houtcome⟩
      · rename_i houtcome
        exact ⟨call, _, hphase, .conflicted call request houtcome⟩
  | selectKey call =>
      simp only [step, selectKey] at hstep
      split at hstep <;> cases hstep
      rename_i request hphase
      exact ⟨call, _, hphase, .selected call request⟩
  | findProduct call product =>
      simp only [step, findProduct] at hstep
      split at hstep
      case h_2 => cases hstep
      rename_i request item rest items totalCents currency hphase
      cases product with
      | some product =>
          cases hstep
          exact ⟨call, _, hphase, .priced call request _ _ _ _ _ _ _ _⟩
      | none =>
          cases hstep
          exact ⟨call, _, hphase, .aborted call _ request _ rfl rfl (.inr ⟨_, rfl⟩)⟩
  | save call =>
      simp only [step, save] at hstep
      split at hstep
      case h_2 => cases hstep
      rename_i request items totalCents currency hphase
      split at hstep <;> cases hstep
      exact ⟨call, _, hphase, .saved call request items totalCents currency _ rfl rfl⟩
  | enqueue call occurredAt now =>
      simp only [step, enqueue] at hstep
      split at hstep <;> cases hstep
      rename_i request order hphase
      exact ⟨call, _, hphase, .enqueued call request order occurredAt now⟩
  | link call =>
      simp only [step, link] at hstep
      split at hstep
      case h_2 => cases hstep
      rename_i request order hphase
      split at hstep <;> cases hstep
      rename_i keys hit hvisit
      exact ⟨call, _, hphase, .linked call request order keys hit hvisit⟩
  | commit call =>
      simp only [step, commit] at hstep
      split at hstep <;> cases hstep
      · rename_i request order hphase
        exact ⟨call, _, hphase, .committed call request order⟩
      · rename_i request existing hphase
        exact ⟨call, _, hphase, .replayCommitted call request existing⟩
  | respond call =>
      simp only [step, respond] at hstep
      split at hstep
      · rename_i request order hphase
        cases hstep
        exact ⟨call, _, hphase, .answered call request order⟩
      · rename_i request hphase
        cases hstep
        exact ⟨call, _, hphase, .failed call request none (by simp)⟩
      · rename_i request row hphase
        split at hstep
        · rename_i hhash
          cases hstep
          exact ⟨call, _, hphase, .mismatched call request row hhash⟩
        · rename_i hhash
          simp only [ne_eq, Decidable.not_not] at hhash
          split at hstep
          · rename_i hlink
            cases hstep
            exact ⟨call, _, hphase, .lost call request row _ hhash
              fun orderId hsome => by rw [hlink] at hsome; cases hsome⟩
          · rename_i orderId hlink
            split at hstep <;> cases hstep
            · rename_i order hfind
              exact ⟨call, _, hphase, .replayed call request row orderId order hhash hlink hfind⟩
            · rename_i hfind
              exact ⟨call, _, hphase, .lost call request row _ hhash fun orderId' hsome => by
                rw [hlink] at hsome
                cases hsome
                exact hfind⟩
      · cases hstep
  | abort call =>
      simp only [step, abort] at hstep
      split at hstep
      · rename_i request row hphase
        split at hstep <;> cases hstep
        rename_i hhash
        exact ⟨call, _, hphase, .failed call request (some row) fun row' hrow => by
          cases hrow
          exact hhash⟩
      · split at hstep <;> cases hstep
        rename_i request hopen hrequest
        exact ⟨call, _, rfl, .aborted call _ request _ hopen hrequest (.inl rfl)⟩

end Marketplace.Orders
