import Marketplace.Orders.CreateIdempotentKeys

/-!
# The rows a call inserts

A call that has placed its order has one row in `orders` and one in `outbox`, every other call has
none; and a call that replays answers with an order that is committed.
-/

namespace Marketplace.Orders

open ReadCommitted ReadCommitted.Table Transition

variable {Digest : Type} {requestHash : CreateOrderDto → Digest} {orders : Inserts Call Order}
  {outbox : Inserts Call OutboxRow} {call : Call} {before after state : State Digest}

structure Placed (orders : Inserts Call Order) (outbox : Inserts Call OutboxRow) (call : Call)
    (request : Request) (saved : Order) : Prop where
  orders : orders.ofTx call = [saved]
  outbox : ∃ occurredAt now,
    outbox.ofTx call = [enqueueOrderPlaced (eventData saved) occurredAt now]
  owner : saved.userId = request.userId

def RowsOk (orders : Inserts Call Order) (outbox : Inserts Call OutboxRow) (call : Call) :
    Phase Digest → Prop
  | .enqueuing request saved =>
      orders.ofTx call = [saved] ∧ outbox.ofTx call = [] ∧ saved.userId = request.userId
  | .linking request saved | .committing request saved | .created request saved =>
      Placed orders outbox call request saved
  | .returned request order false =>
      ∃ saved, Placed orders outbox call request saved ∧ order = toResponse saved
  | _ => orders.ofTx call = [] ∧ outbox.ofTx call = []

/-- The rows of the transactions that have committed. -/
def State.committedOrders (state : State Digest) : List (Call × Order) :=
  state.orders.committed state.isOpen

def State.committedOutbox (state : State Digest) : List (Call × OutboxRow) :=
  state.outbox.committed state.isOpen

structure RowsInv (state : State Digest) : Prop where
  rows : ∀ call, RowsOk state.orders state.outbox call (state.calls call)
  ids : ∀ entry ∈ state.orders, entry.2.id < state.nextOrderId
  unique : (state.orders.map fun entry => entry.2.id).Nodup
  replays : ∀ call request order, state.calls call = .returned request order true →
    ∃ entry ∈ state.committedOrders, order = toResponse entry.2
  found : ∀ call request orderId, state.calls call ≠ .threw request (.orderNotFound orderId)

theorem rowsInv_init : RowsInv (State.init : State Digest) where
  rows _ := ⟨rfl, rfl⟩
  ids _ hentry := absurd hentry List.not_mem_nil
  unique := List.nodup_nil
  replays _ _ _ hphase := by cases hphase
  found _ _ _ hphase := by cases hphase

theorem mem_committedOrders {entry : Call × Order} :
    entry ∈ state.committedOrders ↔
      entry ∈ state.orders ∧ (state.calls entry.1).isOpen = false := by
  simp [State.committedOrders, Inserts.committed, State.isOpen]

theorem RowsOk.congr {orders' : Inserts Call Order} {outbox' : Inserts Call OutboxRow}
    {phase : Phase Digest} (horders : orders'.ofTx call = orders.ofTx call)
    (houtbox : outbox'.ofTx call = outbox.ofTx call) (hok : RowsOk orders outbox call phase) :
    RowsOk orders' outbox' call phase := by
  have hplaced : ∀ {request saved}, Placed orders outbox call request saved →
      Placed orders' outbox' call request saved := by
    rintro request saved ⟨hsaved, houtbox', howner⟩
    exact ⟨by rw [horders, hsaved], by rwa [houtbox], howner⟩
  cases phase with
  | enqueuing request saved => exact ⟨by rw [horders, hok.1], by rw [houtbox, hok.2.1], hok.2.2⟩
  | linking request saved => exact hplaced hok
  | committing request saved => exact hplaced hok
  | created request saved => exact hplaced hok
  | returned request order replayed =>
      cases replayed with
      | true => exact ⟨by rw [horders, hok.1], by rw [houtbox, hok.2]⟩
      | false =>
          obtain ⟨saved, hsaved, horder⟩ := hok
          exact ⟨saved, hplaced hsaved, horder⟩
  | _ => exact ⟨by rw [horders, hok.1], by rw [houtbox, hok.2]⟩

/-- The step lemma of the rows: what is left to check of the caller. -/
theorem RowsInv.move {phase next : Phase Digest} (hinv : RowsInv before)
    (hphase : before.calls call = phase)
    (hcalls : after.calls = Function.update before.calls call next)
    (horders : ∀ other, other ≠ call → after.orders.ofTx other = before.orders.ofTx other)
    (houtbox : ∀ other, other ≠ call → after.outbox.ofTx other = before.outbox.ofTx other)
    (hok : RowsOk after.orders after.outbox call next)
    (hids : ∀ entry ∈ after.orders, entry.2.id < after.nextOrderId)
    (hunique : (after.orders.map fun entry => entry.2.id).Nodup)
    (hkeep : phase.isOpen = false → ∀ row ∈ before.orders.ofTx call,
      row ∈ after.orders.ofTx call ∧ next.isOpen = false)
    (hreplay : ∀ request order, next = .returned request order true →
      ∃ entry ∈ after.committedOrders, order = toResponse entry.2)
    (hfound : ∀ request orderId, next ≠ .threw request (.orderNotFound orderId)) :
    RowsInv after where
  rows other := by
    rw [hcalls]
    by_cases heq : other = call
    · rw [heq, Function.update_self]
      exact hok
    · rw [Function.update_of_ne heq]
      exact (hinv.rows other).congr (horders other heq) (houtbox other heq)
  ids := hids
  unique := hunique
  replays other request order hother := by
    rw [hcalls] at hother
    by_cases heq : other = call
    · rw [heq, Function.update_self] at hother
      exact hreplay request order hother
    · rw [Function.update_of_ne heq] at hother
      obtain ⟨⟨owner, row⟩, hentry, horder⟩ := hinv.replays other request order hother
      obtain ⟨hmem, hclosed⟩ := mem_committedOrders.mp hentry
      refine ⟨(owner, row), mem_committedOrders.mpr ?_, horder⟩
      rw [← Inserts.mem_ofTx] at hmem
      rw [← Inserts.mem_ofTx, hcalls]
      by_cases hown : owner = call
      · subst hown
        rw [Function.update_self]
        exact hkeep (by rwa [hphase] at hclosed) row hmem
      · rw [horders owner hown, Function.update_of_ne hown]
        exact ⟨hmem, hclosed⟩
  found other request orderId hother := by
    rw [hcalls] at hother
    by_cases heq : other = call
    · rw [heq, Function.update_self] at hother
      exact hfound request orderId hother
    · rw [Function.update_of_ne heq] at hother
      exact hinv.found other request orderId hother

/-- A step that inserts nothing. -/
theorem RowsInv.goto {phase next : Phase Digest} (hinv : RowsInv before)
    (hphase : before.calls call = phase)
    (hcalls : after.calls = Function.update before.calls call next)
    (horders : after.orders = before.orders) (houtbox : after.outbox = before.outbox)
    (hnext : after.nextOrderId = before.nextOrderId)
    (hok : RowsOk before.orders before.outbox call next)
    (hopen : phase.isOpen = false → next.isOpen = true → phase = .idle)
    (hreplay : ∀ request order, next = .returned request order true →
      ∃ entry ∈ after.committedOrders, order = toResponse entry.2)
    (hfound : ∀ request orderId, next ≠ .threw request (.orderNotFound orderId)) :
    RowsInv after := by
  apply hinv.move hphase hcalls
  · intro other hne
    rw [horders]
  · intro other hne
    rw [houtbox]
  · rwa [horders, houtbox]
  · rw [horders, hnext]
    exact hinv.ids
  · rw [horders]
    exact hinv.unique
  · intro hclosed row hrow
    rw [horders]
    refine ⟨hrow, Bool.eq_false_iff.mpr fun hnextOpen => ?_⟩
    -- a call that begins has no rows
    have hidle := hinv.rows call
    rw [hphase, hopen hclosed hnextOpen] at hidle
    rw [hidle.1] at hrow
    exact absurd hrow List.not_mem_nil
  · exact hreplay
  · exact hfound

/-- The call has committed the order. -/
def HasCreated (request : Request) (saved : Order) (phase : Phase Digest) : Prop :=
  phase = .created request saved ∨ phase = .returned request (toResponse saved) false

section HasCreated

variable {request : Request} {saved : Order} {phase : Phase Digest}

theorem HasCreated.closed (hcreated : HasCreated request saved phase) : phase.isOpen = false := by
  rcases hcreated with rfl | rfl <;> rfl

theorem HasCreated.request_eq (hcreated : HasCreated request saved phase) :
    phase.request = some request := by
  rcases hcreated with rfl | rfl <;> rfl

theorem HasCreated.creates (hcreated : HasCreated request saved phase) :
    Creates requestHash request.idempotencyKey ⟨requestHash request.dto, some saved.id⟩ phase := by
  rcases hcreated with rfl | rfl
  · exact ⟨rfl, rfl⟩
  · exact ⟨rfl, saved.id, rfl, rfl⟩

end HasCreated

/-- The committed row of a key links the order of the call that claimed it. -/
theorem RowsInv.creator {key : Text} {row : KeyRow Digest}
    (hkeys : KeysInv requestHash state.keys state.calls) (hinv : RowsInv state)
    (hrow : state.keys.committed key = some row) :
    ∃ call request saved, HasCreated request saved (state.calls call) ∧
      Placed state.orders state.outbox call request saved ∧ key = request.idempotencyKey ∧
      row = ⟨requestHash request.dto, some saved.id⟩ := by
  obtain ⟨call, hcreates⟩ := hkeys.creator key row hrow
  have hrows := hinv.rows call
  cases hphase : state.calls call with
  | created request saved =>
      rw [hphase] at hcreates hrows
      exact ⟨call, request, saved, .inl hphase, hrows, hcreates.1, hcreates.2⟩
  | returned request order replayed =>
      rw [hphase] at hcreates hrows
      cases replayed with
      | true => exact hcreates.elim
      | false =>
          obtain ⟨saved, hplaced, horder⟩ := hrows
          obtain ⟨hkey, orderId, hlink, hid⟩ := hcreates
          have hsaved : saved.id = orderId := decimal_nat_injective (by rw [← hid, horder]; rfl)
          rw [← hsaved] at hlink
          exact ⟨call, request, saved, .inr (by rw [hphase, horder]), hplaced, hkey, hlink⟩
  | _ =>
      rw [hphase] at hcreates
      exact hcreates.elim

theorem Placed.mem_committedOrders {request : Request} {saved : Order}
    (hplaced : Placed state.orders state.outbox call request saved)
    (hclosed : (state.calls call).isOpen = false) : (call, saved) ∈ state.committedOrders := by
  rw [Orders.mem_committedOrders, ← Inserts.mem_ofTx, hplaced.orders]
  exact ⟨List.mem_singleton.mpr rfl, hclosed⟩

theorem mem_of_findOne {orderId : OrderId} {order : Order}
    (hfind : findOne state orderId = some order) :
    ∃ entry ∈ state.committedOrders, order = entry.2 := by
  obtain ⟨entry, hentry, rfl⟩ := Option.map_eq_some_iff.mp hfind
  exact ⟨entry, List.mem_of_find?_eq_some hentry, rfl⟩

theorem findOne_ne_none {entry : Call × Order} (hentry : entry ∈ state.committedOrders) :
    findOne state entry.2.id ≠ none := by
  intro hnone
  rw [findOne, Option.map_eq_none_iff, List.find?_eq_none] at hnone
  exact hnone entry hentry (decide_eq_true rfl)

/-- A replay finds the order that its key links. -/
theorem RowsInv.findOne_linked {key : Text} {row : KeyRow Digest}
    (hkeys : KeysInv requestHash state.keys state.calls) (hinv : RowsInv state)
    (hrow : state.keys.committed key = some row) :
    ∃ orderId, row.orderId = some orderId ∧ findOne state orderId ≠ none := by
  obtain ⟨call, request, saved, hcreated, hplaced, -, hlink⟩ := hinv.creator hkeys hrow
  exact ⟨saved.id, by rw [hlink], findOne_ne_none (hplaced.mem_committedOrders hcreated.closed)⟩

theorem RowsInv.save {request : Request} {order : Order} {next : Phase Digest}
    (hinv : RowsInv before) (hopen : (before.calls call).isOpen = true)
    (hid : order.id = before.nextOrderId)
    (hok : RowsOk (before.orders.insert call order) before.outbox call next)
    (hnext : next = .enqueuing request order) :
    RowsInv { (before.goto call next) with
      orders := before.orders.insert call order
      nextOrderId := before.nextOrderId + 1 } := by
  subst hnext
  apply hinv.move rfl rfl
  · intro other hne
    exact Inserts.ofTx_insert_of_ne hne
  · intro other hne
    rfl
  · exact hok
  · intro entry hentry
    rcases List.mem_append.mp hentry with hold | hentry
    · exact Nat.lt_succ_of_lt (hinv.ids entry hold)
    · rw [List.mem_singleton.mp hentry, hid]
      exact Nat.lt_succ_self _
  · change (List.map _ (before.orders ++ [(call, order)])).Nodup
    rw [List.map_append, List.nodup_append]
    refine ⟨hinv.unique, List.nodup_singleton _, ?_⟩
    intro id hold id' hnew heq
    obtain ⟨entry, hentry, rfl⟩ := List.mem_map.mp hold
    have hlt := hinv.ids entry hentry
    have hfresh : id' = before.nextOrderId := by
      rw [List.mem_singleton.mp hnew]
      exact hid
    rw [heq, hfresh] at hlt
    exact Nat.lt_irrefl _ hlt
  · intro hclosed
    rw [hopen] at hclosed
    cases hclosed
  · intro request order heq
    cases heq
  · intro request orderId heq
    cases heq

theorem RowsInv.rollback {request : Request} {failure : Failure} (hinv : RowsInv before)
    (hopen : (before.calls call).isOpen = true)
    (hfailure : ∀ orderId, failure ≠ .orderNotFound orderId) :
    RowsInv (before.rollback call (.threw request failure)) := by
  apply hinv.move rfl rfl
  · intro other hne
    exact Inserts.ofTx_rollback_of_ne hne
  · intro other hne
    exact Inserts.ofTx_rollback_of_ne hne
  · exact ⟨Inserts.ofTx_rollback_self, Inserts.ofTx_rollback_self⟩
  · intro entry hentry
    exact hinv.ids entry (List.mem_of_mem_filter hentry)
  · exact hinv.unique.sublist (List.Sublist.map _ List.filter_sublist)
  · intro hclosed
    rw [hopen] at hclosed
    cases hclosed
  · intro request order heq
    cases heq
  · intro request orderId heq
    exact hfailure orderId (Phase.threw.inj heq).2

theorem RowsInv.step {action : Action} {phase : Phase Digest} [DecidableEq Digest]
    (hkeys : KeysInv requestHash before.keys before.calls) (hinv : RowsInv before)
    (hphase : before.calls call = phase) (hruns : Runs requestHash before action call phase after) :
    RowsInv after := by
  have hok := hinv.rows call
  have hknown := hkeys.ok call
  rw [hphase] at hok hknown
  cases hruns with
  | began request haction =>
      exact hinv.goto hphase rfl rfl rfl rfl hok (fun _ _ => rfl) nofun nofun
  | claimed request houtcome =>
      exact hinv.goto hphase rfl rfl rfl rfl hok nofun nofun nofun
  | conflicted request houtcome =>
      exact hinv.goto hphase rfl rfl rfl rfl hok nofun nofun nofun
  | selected request =>
      exact hinv.goto hphase rfl rfl rfl rfl hok nofun nofun nofun
  | priced request rest rest' items items' totalCents totalCents' currency currency' =>
      exact hinv.goto hphase rfl rfl rfl rfl hok nofun nofun nofun
  | saved request items totalCents currency order hid howner =>
      apply hinv.save (by rw [hphase]; rfl) hid ?_ rfl
      refine ⟨?_, hok.2, howner⟩
      rw [Inserts.ofTx_insert_self, hok.1]
      rfl
  | enqueued request order occurredAt now =>
      obtain ⟨horders, houtbox, howner⟩ := hok
      apply hinv.move hphase rfl
      · intro other hne
        rfl
      · intro other hne
        exact Inserts.ofTx_insert_of_ne hne
      · refine ⟨horders, ⟨occurredAt, now, ?_⟩, howner⟩
        rw [Inserts.ofTx_insert_self, houtbox]
        rfl
      · exact hinv.ids
      · exact hinv.unique
      · exact nofun
      · exact nofun
      · exact nofun
  | linked request order keys hit hvisit =>
      exact hinv.goto hphase rfl rfl rfl rfl hok nofun nofun nofun
  | committed request order =>
      exact hinv.goto hphase rfl rfl rfl rfl hok nofun nofun nofun
  | replayCommitted request existing =>
      exact hinv.goto hphase rfl rfl rfl rfl hok nofun nofun nofun
  | answered request order =>
      refine hinv.goto hphase rfl rfl rfl rfl ⟨order, hok, rfl⟩ nofun ?_ nofun
      intro request' order' heq
      cases heq
  | mismatched request row hhash =>
      exact hinv.goto hphase rfl rfl rfl rfl hok nofun nofun nofun
  | replayed request row orderId order hhash hlink hfind =>
      refine hinv.goto hphase rfl rfl rfl rfl hok nofun ?_ nofun
      intro request' order' heq
      obtain ⟨entry, hentry, rfl⟩ := mem_of_findOne hfind
      refine ⟨entry, ?_, (Phase.returned.inj heq).2.1.symm⟩
      obtain ⟨hmem, hclosed⟩ := mem_committedOrders.mp hentry
      refine mem_committedOrders.mpr ⟨hmem, ?_⟩
      by_cases hown : entry.1 = call
      · rw [hown]
        simp [State.goto, Phase.isOpen]
      · simpa [State.goto, Function.update_of_ne hown] using hclosed
  | lost request row missing hhash hmissing =>
      obtain ⟨row', hexisting, hrow⟩ := hknown
      cases hexisting
      obtain ⟨orderId, hlink, hfind⟩ := hinv.findOne_linked hkeys hrow
      exact absurd (hmissing orderId hlink) hfind
  | failed request existing hhash =>
      exact hinv.goto hphase rfl rfl rfl rfl hok nofun nofun nofun
  | aborted phase request failure hopen hrequest hfailure =>
      apply hinv.rollback (by rwa [hphase])
      intro orderId
      rcases hfailure with rfl | ⟨productId, rfl⟩ <;> exact nofun

end Marketplace.Orders
