import Marketplace.Orders.Placing

/-!
# Orders, items and events agree

What a call has written follows from its phase: the order, its items and its event are all made from
one source, whose sum has not been rounded.
-/

namespace Marketplace.Placing

open Checkout (JsNumber OrderItem Purchase Sale)
open Orders (Cart CreateOrderDto OrderItemDto Product sumOf)
open ReadCommitted Transition

/-- The order a call has inserted, by its source. -/
def Phase.written : Phase → Option (Source × OrderId)
  | savingItem sale customerEmail id | savingJob sale customerEmail id =>
      some (.sold sale customerEmail, id)
  | enqueuing _ source id | linking source id | committing source id | placed source id =>
      some (source, id)
  | _ => none

def OrdersOk (phase : Phase) (rows : List OrderRow) : Prop :=
  rows = (phase.written.map fun written => written.1.orderRow written.2).toList

def ItemsOk : Phase → List OrderItem → Prop
  | .savingJob sale customerEmail id, rows => rows = (Source.sold sale customerEmail).itemRows id
  | .enqueuing _ source id, rows | .linking source id, rows | .committing source id, rows
  | .placed source id, rows => rows = source.itemRows id
  | _, rows => rows = []

def OutboxOk : Phase → List OutboxRow → Prop
  | .linking source id, rows | .committing source id, rows | .placed source id, rows =>
      ∃ occurredAt now, rows = [enqueueOrderPlaced (source.eventData id) occurredAt now]
  | _, rows => rows = []

/-- The item of an order is the one that the request asks for. -/
def Asked (number : Text → JsNumber) (item : Orders.OrderItem) (dto : OrderItemDto) : Prop :=
  (number dto.productId).toInt4 = some item.productId ∧ item.quantity = dto.quantity

def Source.Sound (number : Text → JsNumber) : Source → Prop
  | requested dto _ cart =>
      cart.Exact ∧ cart.fits = true ∧ List.Forall₂ (Asked number) cart.items dto.items
  | sold sale _ =>
      0 ≤ sale.priceCents ∧ fitsInt4 (amountOf sale) = true

def Phase.Sound (number : Text → JsNumber) : Phase → Prop
  | claiming dto _ => ∀ item ∈ dto.items, 1 ≤ item.quantity
  | pricing _ dto _ rest cart =>
      cart.Exact ∧ (∀ item ∈ rest, 1 ≤ item.quantity) ∧
        ∃ done, dto.items = done ++ rest ∧ List.Forall₂ (Asked number) cart.items done
  | takingBalance sale => 0 ≤ sale.priceCents
  | saving sale customerEmail | savingItem sale customerEmail _ | savingJob sale customerEmail _ =>
      (Source.sold sale customerEmail).Sound number
  | enqueuing _ source _ | linking source _ | committing source _ | placed source _ =>
      source.Sound number
  | _ => True

structure Inv (number : Text → JsNumber) (state : State) : Prop where
  orders : state.orders.Tracks OrdersOk state.calls
  items : state.orderItems.Tracks ItemsOk state.calls
  outbox : state.outbox.Tracks OutboxOk state.calls
  serial : state.orders.Serial OrderRow.id state.nextOrderId
  sound : ∀ call, (state.calls call).Sound number

variable {number : Text → JsNumber} {before after state : State} {call : Call} {phase next : Phase}

theorem inv_init : Inv number State.init where
  orders _ := rfl
  items _ := rfl
  outbox _ := rfl
  serial := Inserts.serial_nil
  sound _ := trivial

theorem Inv.sound_update (hinv : Inv number before) (hnext : next.Sound number) (other : Call) :
    (Function.update before.calls call next other).Sound number := by
  by_cases heq : other = call
  · rw [heq, Function.update_self]
    exact hnext
  · rw [Function.update_of_ne heq]
    exact hinv.sound other

/-- A step that writes nothing. -/
theorem Inv.goto (hinv : Inv number before) (hphase : before.calls call = phase)
    (hwritten : next.written = phase.written)
    (hitems : ∀ rows, ItemsOk phase rows → ItemsOk next rows)
    (houtbox : ∀ rows, OutboxOk phase rows → OutboxOk next rows) (hsound : next.Sound number) :
    Inv number (before.goto call next) where
  orders := by
    apply hinv.orders.keep
    intro rows hrows
    rwa [OrdersOk, hwritten, ← hphase]
  items := hinv.items.keep (hphase ▸ hitems)
  outbox := hinv.outbox.keep (hphase ▸ houtbox)
  serial := hinv.serial
  sound := hinv.sound_update hsound

theorem Inv.rollback (hinv : Inv number before) : Inv number (before.rollback call) where
  orders := hinv.orders.rollback rfl
  items := hinv.items.rollback rfl
  outbox := hinv.outbox.rollback rfl
  serial := hinv.serial.rollback
  sound := hinv.sound_update trivial

/-- `orders` gets a row with the next id. -/
theorem Inv.orders_insert (hinv : Inv number before) (hphase : before.calls call = phase)
    (hnone : phase.written = none) {source : Source} {id : OrderId}
    (hnext : next.written = some (source, id)) :
    (before.orders.insert call (source.orderRow id)).Tracks OrdersOk
      (Function.update before.calls call next) := by
  apply hinv.orders.insert
  intro rows hrows
  rw [hphase, OrdersOk, hnone] at hrows
  rw [hrows, OrdersOk, hnext]
  rfl

theorem orderRow_id (source : Source) (id : OrderId) : (source.orderRow id).id = id := by
  cases source <;> rfl

theorem Inv.serial_insert (hinv : Inv number before) (source : Source) :
    (before.orders.insert call (source.orderRow before.nextOrderId)).Serial OrderRow.id
      (before.nextOrderId + 1) :=
  hinv.serial.insert (orderRow_id source _)

theorem Inv.save (hinv : Inv number before) {idempotent : Bool} {dto : CreateOrderDto}
    {userId : Option UserId} {cart : Cart}
    (hphase : before.calls call = .pricing idempotent dto userId [] cart)
    (hfits : cart.fits = true) :
    let source := Source.requested dto userId cart
    Inv number { (before.goto call (.enqueuing idempotent source before.nextOrderId)) with
      orders := before.orders.insert call (source.orderRow before.nextOrderId)
      orderItems := before.orderItems.insertAll call (source.itemRows before.nextOrderId)
      nextOrderId := before.nextOrderId + 1 } where
  orders := hinv.orders_insert hphase rfl rfl
  items := by
    apply hinv.items.insertAll
    intro rows hrows
    rw [hphase] at hrows
    rw [show rows = [] from hrows]
    rfl
  outbox := by
    apply hinv.outbox.keep
    rw [hphase]
    exact fun _ => id
  serial := hinv.serial_insert _
  sound := by
    have hsound := hinv.sound call
    rw [hphase] at hsound
    obtain ⟨hexact, -, done, hdone, hasked⟩ := hsound
    rw [List.append_nil] at hdone
    exact hinv.sound_update ⟨hexact, hfits, hdone ▸ hasked⟩

theorem Inv.saveOrder (hinv : Inv number before) {sale : Sale} {customerEmail : String}
    (hphase : before.calls call = .saving sale customerEmail) :
    Inv number { (before.goto call (.savingItem sale customerEmail before.nextOrderId)) with
      orders := before.orders.insert call
        ((Source.sold sale customerEmail).orderRow before.nextOrderId)
      nextOrderId := before.nextOrderId + 1 } where
  orders := hinv.orders_insert hphase rfl rfl
  items := by
    apply hinv.items.keep
    rw [hphase]
    exact fun _ => id
  outbox := by
    apply hinv.outbox.keep
    rw [hphase]
    exact fun _ => id
  serial := hinv.serial_insert _
  sound := by
    have hsound := hinv.sound call
    rw [hphase] at hsound
    exact hinv.sound_update hsound

theorem Inv.saveItem (hinv : Inv number before) {sale : Sale} {customerEmail : String}
    {orderId : OrderId} (hphase : before.calls call = .savingItem sale customerEmail orderId) :
    Inv number { (before.goto call (.savingJob sale customerEmail orderId)) with
      orderItems := before.orderItems.insertAll call
        ((Source.sold sale customerEmail).itemRows orderId) } where
  orders := by
    apply hinv.orders.keep
    rw [hphase]
    exact fun _ => id
  items := by
    apply hinv.items.insertAll
    intro rows hrows
    rw [hphase] at hrows
    rw [show rows = [] from hrows]
    rfl
  outbox := by
    apply hinv.outbox.keep
    rw [hphase]
    exact fun _ => id
  serial := hinv.serial
  sound := by
    have hsound := hinv.sound call
    rw [hphase] at hsound
    exact hinv.sound_update hsound

theorem Inv.enqueue (hinv : Inv number before) {idempotent : Bool} {source : Source}
    {orderId : OrderId} (hphase : before.calls call = .enqueuing idempotent source orderId)
    (hnext : next = .linking source orderId ∨ next = .committing source orderId)
    (occurredAt now : Nat) :
    Inv number { (before.goto call next) with
      outbox := before.outbox.insert call
        (enqueueOrderPlaced (source.eventData orderId) occurredAt now) } where
  orders := by
    apply hinv.orders.keep
    rw [hphase]
    rcases hnext with rfl | rfl <;> exact fun _ => id
  items := by
    apply hinv.items.keep
    rw [hphase]
    rcases hnext with rfl | rfl <;> exact fun _ => id
  outbox := by
    apply hinv.outbox.insert
    intro rows hrows
    rw [hphase] at hrows
    rw [show rows = [] from hrows]
    rcases hnext with rfl | rfl <;> exact ⟨occurredAt, now, rfl⟩
  serial := hinv.serial
  sound := by
    have hsound := hinv.sound call
    rw [hphase] at hsound
    apply hinv.sound_update
    rcases hnext with rfl | rfl <;> exact hsound

theorem Inv.step {action : Action} (hinv : Inv number before) (hvalid : Valid before action)
    (hstep : step number before action = some after) : Inv number after := by
  cases action with
  | create call dto userId =>
      simp only [Placing.step, create] at hstep
      split at hstep <;> cases hstep
      rename_i hphase
      exact hinv.goto hphase rfl (fun _ => id) (fun _ => id)
        ⟨Cart.exact_empty, hvalid, [], rfl, .nil⟩
  | createIdempotent call dto userId =>
      simp only [Placing.step, createIdempotent] at hstep
      split at hstep <;> cases hstep
      rename_i hphase
      exact hinv.goto hphase rfl (fun _ => id) (fun _ => id) hvalid
  | claim call claimed =>
      simp only [Placing.step, claim] at hstep
      split at hstep
      case h_2 => cases hstep
      rename_i dto userId hphase
      have hsound := hinv.sound call
      rw [hphase] at hsound
      split at hstep <;> cases hstep
      · exact hinv.goto hphase rfl (fun _ => id) (fun _ => id)
          ⟨Cart.exact_empty, hsound, [], rfl, .nil⟩
      · exact hinv.goto hphase rfl (fun _ => id) (fun _ => id) trivial
  | findProduct call product =>
      simp only [Placing.step, findProduct] at hstep
      split at hstep
      case h_2 => cases hstep
      rename_i idempotent dto userId item rest cart hphase
      have hsound := hinv.sound call
      rw [hphase] at hsound
      obtain ⟨hexact, hquantities, done, hdone, hasked⟩ := hsound
      split at hstep
      · cases hstep
        exact hinv.rollback
      split at hstep
      · cases hstep
        exact hinv.rollback
      · rename_i productId product hid
        split at hstep <;> cases hstep
        rename_i heq
        have hquantity : 0 ≤ item.quantity :=
          Int.le_trans (by decide) (hquantities item List.mem_cons_self)
        refine hinv.goto hphase rfl (fun _ => id) (fun _ => id)
          ⟨hexact.add hvalid hquantity,
            fun other hother => hquantities other (List.mem_cons_of_mem _ hother),
            done ++ [item], ?_, ?_⟩
        · rw [hdone, List.append_assoc, List.singleton_append]
        · exact List.rel_append hasked (.cons ⟨heq ▸ hid, rfl⟩ .nil)
      · cases hstep
  | save call =>
      simp only [Placing.step, Placing.save] at hstep
      split at hstep
      case h_2 => cases hstep
      rename_i idempotent dto userId cart hphase
      split at hstep <;> cases hstep
      rename_i hfits
      exact hinv.save hphase hfits
  | checkout call purchase =>
      simp only [Placing.step, checkout] at hstep
      split at hstep <;> cases hstep
      rename_i hphase
      exact hinv.goto hphase rfl (fun _ => id) (fun _ => id) trivial
  | takeStock call priceCents =>
      simp only [Placing.step, takeStock] at hstep
      split at hstep
      case h_2 => cases hstep
      rename_i purchase hphase
      split at hstep <;> cases hstep
      exact hinv.goto hphase rfl (fun _ => id) (fun _ => id) hvalid
  | takeBalance call customerEmail =>
      simp only [Placing.step, takeBalance] at hstep
      split at hstep
      case h_2 => cases hstep
      rename_i sale hphase
      have hsound := hinv.sound call
      rw [hphase] at hsound
      split at hstep <;> cases hstep
      rename_i hfits
      exact hinv.goto hphase rfl (fun _ => id) (fun _ => id) ⟨hsound, hfits⟩
  | saveOrder call =>
      simp only [Placing.step, Placing.saveOrder] at hstep
      split at hstep <;> cases hstep
      rename_i sale customerEmail hphase
      exact hinv.saveOrder hphase
  | saveItem call =>
      simp only [Placing.step, Placing.saveItem] at hstep
      split at hstep <;> cases hstep
      rename_i sale customerEmail orderId hphase
      exact hinv.saveItem hphase
  | saveJob call =>
      simp only [Placing.step, saveJob] at hstep
      split at hstep <;> cases hstep
      rename_i sale customerEmail orderId hphase
      have hsound := hinv.sound call
      rw [hphase] at hsound
      exact hinv.goto hphase rfl (fun _ => id) (fun _ => id) hsound
  | enqueue call occurredAt now =>
      simp only [Placing.step, Placing.enqueue] at hstep
      split at hstep <;> cases hstep
      rename_i idempotent source orderId hphase
      apply hinv.enqueue hphase
      cases idempotent with
      | true => exact .inl rfl
      | false => exact .inr rfl
  | link call =>
      simp only [Placing.step, link] at hstep
      split at hstep <;> cases hstep
      rename_i source orderId hphase
      have hsound := hinv.sound call
      rw [hphase] at hsound
      exact hinv.goto hphase rfl (fun _ => id) (fun _ => id) hsound
  | commit call =>
      simp only [Placing.step, commit] at hstep
      split at hstep <;> cases hstep
      rename_i source orderId hphase
      have hsound := hinv.sound call
      rw [hphase] at hsound
      exact hinv.goto hphase rfl (fun _ => id) (fun _ => id) hsound
  | abort call =>
      simp only [Placing.step, abort] at hstep
      split at hstep <;> cases hstep
      exact hinv.rollback

theorem inv_reach {state : State} (hreach : Reach (step number) Valid State.init state) :
    Inv number state := by
  apply Reach.invariant (Inv number) inv_init _ hreach
  intro state action after _ hinv hvalid hstep
  exact hinv.step hvalid hstep

/-! ### What others can read -/

variable {state : State} {source : Source} {orderId : OrderId}

def State.committedOrders (state : State) : List OrderRow :=
  (state.orders.committed state.isOpen).map Prod.snd

def State.itemsOf (state : State) (orderId : OrderId) : List OrderItem :=
  ((state.orderItems.committed state.isOpen).filter fun entry => entry.2.orderId =
    orderId).map Prod.snd

def State.outboxOf (state : State) (orderId : OrderId) : List OutboxRow :=
  ((state.outbox.committed state.isOpen).filter fun entry =>
    entry.2.aggregateId = decimal orderId).map Prod.snd

theorem Inv.mem_orders (hinv : Inv number state)
    (hphase : state.calls call = .placed source orderId) :
    (call, source.orderRow orderId) ∈ state.orders := by
  have hrows := hinv.orders call
  rw [hphase] at hrows
  rw [← Inserts.mem_ofTx, show state.orders.ofTx call = [source.orderRow orderId] from hrows]
  exact List.mem_singleton_self _

theorem Inv.call_eq (hinv : Inv number state) {other : Call} {source' : Source}
    (hphase : state.calls call = .placed source orderId)
    (hother : state.calls other = .placed source' orderId) : other = call := by
  have hid : (source'.orderRow orderId).id = (source.orderRow orderId).id :=
    (orderRow_id _ _).trans (orderRow_id _ _).symm
  exact congrArg Prod.fst (hinv.serial.eq_of_id (hinv.mem_orders hother)
    (hinv.mem_orders hphase) hid)

/-- A call without an open transaction that has not placed an order. -/
def Phase.isIdle : Phase → Bool
  | idle | replayed | threw => true
  | _ => false

theorem idle_or_placed (hclosed : phase.isOpen = false) :
    phase.isIdle = true ∨ ∃ source orderId, phase = .placed source orderId := by
  cases phase with
  | idle => exact .inl rfl
  | replayed => exact .inl rfl
  | threw => exact .inl rfl
  | placed source orderId => exact .inr ⟨source, orderId, rfl⟩
  | _ => cases hclosed

theorem rows_of_idle (hidle : phase.isIdle = true) : (∀ rows, OrdersOk phase rows → rows = []) ∧
    (∀ rows, ItemsOk phase rows → rows = []) ∧ ∀ rows, OutboxOk phase rows → rows = [] := by
  cases phase with
  | idle => exact ⟨fun _ => id, fun _ => id, fun _ => id⟩
  | replayed => exact ⟨fun _ => id, fun _ => id, fun _ => id⟩
  | threw => exact ⟨fun _ => id, fun _ => id, fun _ => id⟩
  | _ => cases hidle

/-- The committed rows that name an order are the ones of the call that has placed it. -/
theorem Inv.filter_eq_ofTx {Row Name : Type} [DecidableEq Name] {rows : Inserts Call Row}
    {expected : Phase → List Row → Prop} (hinv : Inv number state)
    (htracks : rows.Tracks expected state.calls) (nameOf : Row → Name) {name : OrderId → Name}
    (hname : Function.Injective name)
    (hidle : ∀ phase written, phase.isIdle = true → expected phase written → written = [])
    (hnamed : ∀ source orderId written, expected (.placed source orderId) written →
      ∀ row ∈ written, nameOf row = name orderId)
    (hphase : state.calls call = .placed source orderId) :
    ((rows.committed state.isOpen).filter fun entry => nameOf entry.2 = name orderId).map Prod.snd =
      rows.ofTx call := by
  have hcall : state.isOpen call = false := by
    rw [State.isOpen, hphase]
    rfl
  rw [← Inserts.ofTx_committed hcall]
  apply Inserts.map_filter_eq_ofTx _ fun row => decide (nameOf row = name orderId)
  rintro ⟨owner, row⟩ hentry
  obtain ⟨hmem, howner⟩ := List.mem_filter.mp hentry
  have hwritten := Inserts.mem_ofTx.mpr hmem
  have hexpected := htracks owner
  have howner' : (state.calls owner).isOpen = false := by simpa [State.isOpen] using howner
  obtain ⟨source', orderId', hphase'⟩ := (idle_or_placed howner').resolve_left fun hnone =>
    List.ne_nil_of_mem hwritten (hidle _ _ hnone hexpected)
  rw [hphase'] at hexpected
  rw [decide_eq_true_eq, hnamed source' orderId' _ hexpected row hwritten]
  constructor
  · intro heq
    rw [hname heq] at hphase'
    exact hinv.call_eq hphase hphase'
  · rintro rfl
    rw [hphase] at hphase'
    cases hphase'
    rfl

theorem Inv.itemsOf_eq (hinv : Inv number state)
    (hphase : state.calls call = .placed source orderId) :
    state.itemsOf orderId = source.itemRows orderId := by
  have hrows := hinv.items call
  rw [hphase] at hrows
  rw [← show state.orderItems.ofTx call = source.itemRows orderId from hrows]
  apply hinv.filter_eq_ofTx hinv.items OrderItem.orderId (fun _ _ => id) ?_ ?_ hphase
  · exact fun phase written hnone => (rows_of_idle hnone).2.1 written
  · rintro source orderId written rfl row hrow
    cases source with
    | requested dto userId cart =>
        obtain ⟨item, -, rfl⟩ := List.mem_map.mp hrow
        rfl
    | sold sale customerEmail =>
        rw [List.mem_singleton.mp hrow]

theorem Inv.outboxOf_eq (hinv : Inv number state)
    (hphase : state.calls call = .placed source orderId) :
    ∃ occurredAt now, state.outboxOf orderId =
      [enqueueOrderPlaced (source.eventData orderId) occurredAt now] := by
  have hrows := hinv.outbox call
  rw [hphase] at hrows
  obtain ⟨occurredAt, now, hrow⟩ := hrows
  refine ⟨occurredAt, now, ?_⟩
  rw [← hrow]
  apply hinv.filter_eq_ofTx hinv.outbox OutboxRow.aggregateId
    (fun _ _ => decimal_nat_injective) ?_ ?_
    hphase
  · exact fun phase written hnone => (rows_of_idle hnone).2.2 written
  · rintro source orderId written ⟨occurredAt, now, rfl⟩ row hrow
    rw [List.mem_singleton.mp hrow]
    cases source <;> rfl

end Marketplace.Placing
