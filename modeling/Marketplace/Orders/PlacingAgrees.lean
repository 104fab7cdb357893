import Marketplace.Orders.PlacingRows

/-!
# Orders, items and events agree

Whatever is committed is consistent; what does not fit into its column is never committed.
-/

namespace Marketplace.Placing

open Checkout (JsNumber OrderItem Purchase)
open Orders (CreateOrderDto OrderItemDto fitsInt4_of_tracks lt_exactBound sumOf)
open ReadCommitted Transition

variable {number : Text → JsNumber} {state after : State} {call : Call} {source : Source}
  {orderId : OrderId} {order : OrderRow}

/-- The order, its items and its only outbox row say the same. -/
structure Agrees (state : State) (order : OrderRow) : Prop where
  total : order.totalCents =
    ((state.itemsOf order.id).map fun item => item.priceAtPurchaseCents * item.quantity).sum
  column : fitsInt4 order.totalCents = true
  event : ∃ row, state.outboxOf order.id = [row] ∧
    row.payload.eventId = orderPlacedEventId order.id ∧
    row.payload.data =
      { orderId := order.id
        customerEmail := order.customerEmail
        totalCents := order.totalCents
        currency := order.currency
        items := (state.itemsOf order.id).map fun item => ⟨item.productId, item.quantity⟩ }

theorem Source.Sound.total (hsound : source.Sound number) (id : OrderId) :
    (source.orderRow id).totalCents =
        ((source.itemRows id).map fun item => item.priceAtPurchaseCents * item.quantity).sum ∧
      fitsInt4 (source.orderRow id).totalCents = true := by
  cases source with
  | requested dto userId cart =>
      obtain ⟨hexact, hfits, -⟩ := hsound
      have htotal : fitsInt4 cart.totalCents = true := (Bool.and_eq_true_iff.mp hfits).1
      refine ⟨?_, htotal⟩
      change cart.totalCents = (List.map _ (List.map _ cart.items)).sum
      rw [List.map_map, hexact.total_eq htotal]
      rfl
  | sold sale customerEmail =>
      obtain ⟨hprice, hfits⟩ := hsound
      have hamount : 0 ≤ sale.priceCents * sale.purchase.quantity :=
        Int.mul_nonneg hprice (Int.le_of_lt sale.purchase.positive)
      refine ⟨?_, hfits⟩
      change amountOf sale = sale.priceCents * sale.purchase.quantity + 0
      rw [Int.add_zero]
      exact (Double.tracks_round hamount).eq_of_lt (lt_exactBound hfits)

theorem Source.eventData_eq (source : Source) (id : OrderId) : source.eventData id =
    { orderId := id
      customerEmail := (source.orderRow id).customerEmail
      totalCents := (source.orderRow id).totalCents
      currency := (source.orderRow id).currency
      items := (source.itemRows id).map fun item => ⟨item.productId, item.quantity⟩ } := by
  cases source with
  | requested dto userId cart =>
      unfold eventData itemRows
      rw [List.map_map]
      rfl
  | sold sale customerEmail => rfl

theorem Inv.exists_placed (hinv : Inv number state) (horder : order ∈ state.committedOrders) :
    ∃ call source orderId, state.calls call = .placed source orderId ∧
      order = source.orderRow orderId := by
  obtain ⟨⟨call, row⟩, hentry, rfl⟩ := List.mem_map.mp horder
  obtain ⟨hmem, hclosed⟩ := List.mem_filter.mp hentry
  have hwritten := Inserts.mem_ofTx.mpr hmem
  have hrows := hinv.orders call
  have hclosed' : (state.calls call).isOpen = false := by simpa [State.isOpen] using hclosed
  obtain ⟨source, orderId, hphase⟩ := (idle_or_placed hclosed').resolve_left fun hnone =>
    List.ne_nil_of_mem hwritten ((rows_of_idle hnone).1 _ hrows)
  rw [hphase] at hrows
  rw [show state.orders.ofTx call = [source.orderRow orderId] from hrows] at hwritten
  exact ⟨call, source, orderId, hphase, List.mem_singleton.mp hwritten⟩

theorem Inv.agrees (hinv : Inv number state) (horder : order ∈ state.committedOrders) :
    Agrees state order := by
  obtain ⟨call, source, orderId, hphase, rfl⟩ := hinv.exists_placed horder
  have hsound := hinv.sound call
  rw [hphase] at hsound
  obtain ⟨htotal, hcolumn⟩ := Source.Sound.total hsound orderId
  obtain ⟨occurredAt, now, hevent⟩ := hinv.outboxOf_eq hphase
  have hitems := hinv.itemsOf_eq hphase
  have hid := orderRow_id source orderId
  constructor
  · rw [hid, hitems, htotal]
  · exact hcolumn
  · rw [hid, hitems, hevent]
    refine ⟨_, rfl, ?_, ?_⟩
    · cases source <;> rfl
    · exact source.eventData_eq orderId

theorem Inv.nodup_eventIds (hinv : Inv number state) :
    (state.committedOrders.map fun order => orderPlacedEventId order.id).Nodup := by
  have hids : (state.committedOrders.map OrderRow.id).Nodup := by
    rw [State.committedOrders, List.map_map]
    exact hinv.serial.unique.sublist (List.Sublist.map _ List.filter_sublist)
  have hmap := hids.map orderPlacedEventId_injective
  rwa [List.map_map] at hmap

/-! ### Amounts that do not fit -/

/-- What the call is about to write is more than `integer` holds. -/
def Phase.Unrepresentable : Phase → Prop
  | pricing _ _ _ [] cart => fitsInt4 (sumOf cart.items) = false
  | takingBalance sale => fitsInt4 (sale.priceCents * sale.purchase.quantity) = false
  | _ => False

theorem abort_only {action : Action} (hphase : (state.calls action.caller).isOpen = true)
    (hblocked : ∀ action', action'.caller = action.caller → (∀ call, action' ≠ .abort call) →
      step number state action' = none) (hstep : step number state action = some after) :
    after.calls action.caller = .threw := by
  by_cases habort : ∃ call, action = .abort call
  · obtain ⟨call, rfl⟩ := habort
    simp only [step, abort] at hstep
    split at hstep <;> cases hstep
    exact Function.update_self call Phase.threw state.calls
  · rw [hblocked action rfl fun call heq => habort ⟨call, heq⟩] at hstep
    cases hstep

/-- A price or a sum too large for its column leaves the call nothing but to abort. -/
theorem blocked_of_not_fits {action : Action} (hcaller : action.caller = call)
    (hother : ∀ call, action ≠ .abort call)
    (hphase : (∃ idempotent dto userId cart,
        state.calls call = .pricing idempotent dto userId [] cart ∧ cart.fits = false) ∨
      ∃ sale, state.calls call = .takingBalance sale ∧ fitsInt4 (amountOf sale) = false) :
    Placing.step number state action = none := by
  subst hcaller
  cases action with
  | abort caller => exact absurd rfl (hother caller)
  | _ =>
      simp only [Action.caller] at hphase
      obtain ⟨_, _, _, _, hphase, hfits⟩ | ⟨_, hphase, hfits⟩ := hphase <;>
        simp [Placing.step, create, createIdempotent, claim, findProduct, Placing.save, checkout,
          takeStock, takeBalance, Placing.saveOrder, Placing.saveItem, saveJob,
            Placing.enqueue, link,
          commit, hphase, hfits]

theorem Inv.blocked (hinv : Inv number state) (hlarge : (state.calls call).Unrepresentable)
    {action : Action} (hcaller : action.caller = call) (hother : ∀ call, action ≠ .abort call) :
    Placing.step number state action = none := by
  apply blocked_of_not_fits hcaller hother
  have hsound := hinv.sound call
  cases hphase : state.calls call with
  | pricing idempotent dto userId rest cart =>
      rw [hphase] at hlarge hsound
      cases rest with
      | cons item rest => exact hlarge.elim
      | nil =>
          have hsum : fitsInt4 (sumOf cart.items) = false := hlarge
          refine .inl ⟨idempotent, dto, userId, cart, rfl, ?_⟩
          rw [Orders.Cart.fits, fitsInt4_of_tracks hsound.1.tracks, hsum, Bool.false_and]
  | takingBalance sale =>
      rw [hphase] at hlarge hsound
      have hamount : 0 ≤ sale.priceCents * sale.purchase.quantity :=
        Int.mul_nonneg hsound (Int.le_of_lt sale.purchase.positive)
      exact .inr ⟨sale, rfl, (fitsInt4_of_tracks (Double.tracks_round hamount)).trans hlarge⟩
  | _ =>
      rw [hphase] at hlarge
      exact hlarge.elim

/-- What an order is made of when it is committed, and what happens to an amount that its column
cannot hold: the only step left to the call is to abort, and a call that has thrown leaves no
rows. -/
theorem placed_orders_agree (number : Text → JsNumber) {state : State}
    (hreach : Reach (step number) Valid State.init state) :
    (∀ order ∈ state.committedOrders, Agrees state order) ∧
    (state.committedOrders.map fun order => orderPlacedEventId order.id).Nodup ∧
    (∀ call dto userId cart orderId,
      state.calls call = .placed (.requested dto userId cart) orderId →
      List.Forall₂ (fun (item : OrderItem) (asked : OrderItemDto) =>
        (number asked.productId).toInt4 = some item.productId ∧ item.quantity = asked.quantity)
        (state.itemsOf orderId) dto.items) ∧
    (∀ call, (state.calls call).Unrepresentable → ∀ action after, action.caller = call →
      step number state action = some after → after.calls call = .threw) ∧
    ∀ call, state.calls call = .threw → state.orders.ofTx call = [] ∧
      state.orderItems.ofTx call = [] ∧ state.outbox.ofTx call = [] := by
  have hinv := inv_reach hreach
  refine ⟨fun order horder => hinv.agrees horder, hinv.nodup_eventIds, ?_, ?_, ?_⟩
  · intro call dto userId cart orderId hphase
    have hsound := hinv.sound call
    rw [hphase] at hsound
    rw [hinv.itemsOf_eq hphase, Source.itemRows, List.forall₂_map_left_iff]
    exact hsound.2.2
  · intro call hlarge action after hcaller hstep
    subst hcaller
    have hopen : (state.calls action.caller).isOpen = true := by
      cases hphase : state.calls action.caller <;> rw [hphase] at hlarge <;>
        first | rfl | cases hlarge
    exact abort_only hopen (fun action' hsame hother => hinv.blocked hlarge hsame hother) hstep
  · intro call hphase
    have horders := hinv.orders call
    have hitems := hinv.items call
    have houtbox := hinv.outbox call
    rw [hphase] at horders hitems houtbox
    exact ⟨horders, hitems, houtbox⟩

/-- Six of one product. -/
def sixOfOne : Purchase := ⟨8, 4, 6, by decide⟩

/-- A request with one product twice, next to a checkout of another product, and a sum that is too
large. -/
def placingTrace : List Action :=
  [.createIdempotent 0 ⟨"ada@example.com", [⟨['3'], 2⟩, ⟨['4'], 1⟩, ⟨['3'], 5⟩]⟩ (some 7),
    .checkout 1 sixOfOne, .claim 0 true, .findProduct 0 (some ⟨3, 250, "UAH"⟩),
    .takeStock 1 999, .findProduct 0 (some ⟨4, 999, "UAH"⟩), .takeBalance 1 "bob@example.com",
    .findProduct 0 (some ⟨3, 250, "UAH"⟩), .saveOrder 1, .save 0, .saveItem 1,
    .enqueue 0 5 5, .link 0,
    .saveJob 1, .commit 0, .enqueue 1 6 6, .commit 1,
    .create 2 ⟨"eve@example.com", [⟨['3'], 99999999⟩]⟩ none,
    .findProduct 2 (some ⟨3, 250, "UAH"⟩), .abort 2]

theorem placed_orders_agree_trace : ∃ state, Reach (step readDecimal) Valid State.init state ∧
    (state.committedOrders.map OrderRow.totalCents = [5994, 2749] ∧ state.calls 2 = .threw) ∧
    ∀ order ∈ state.committedOrders, Agrees state order := by
  obtain ⟨state, hreach, hcheck⟩ : ∃ state, Reach (step readDecimal) Valid State.init state ∧
      decide (state.committedOrders.map OrderRow.totalCents = [5994, 2749] ∧
        state.calls 2 = .threw) = true :=
    exists_reach_of_runWithin placingTrace (by decide +kernel)
  exact ⟨state, hreach, of_decide_eq_true hcheck, (placed_orders_agree readDecimal hreach).1⟩

end Marketplace.Placing
