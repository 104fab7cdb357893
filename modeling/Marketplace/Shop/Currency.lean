import Marketplace.Shop.ProductCards

/-!
# The currency of an order

`insertOrderWithEvent` adds up the prices whatever their currency is, and keeps the currency of the
last product; `checkout` writes `UAH`. An order is in one currency exactly when its products happen
to agree.
-/

namespace Marketplace.Shop

open Checkout (JsNumber OrderItem Sale checkoutCurrency)
open Orders (Cart CreateOrderDto OrderItemDto)
open Placing (OrderRow Source)
open Products (Catalogue)

variable {Digest : Type} {number : Text → JsNumber} {requestHash : CreateOrderDto → Digest}
  {store after : Store Digest}

/-- The step has committed this order with these items. -/
structure Commits (store after : Store Digest) (order : OrderRow) (items : List OrderItem) :
    Prop where
  orders : after.orders = store.orders ++ [order]
  items : after.orderItems = store.orderItems ++ items

/-- Every product of the order has the currency of the order. -/
def InOneCurrency (catalogue : Catalogue) (order : OrderRow) (items : List OrderItem) : Prop :=
  ∀ item ∈ items, ∀ product, catalogue.find item.productId = some product →
    product.currency = order.currency

/-- The products that the items name have one currency. -/
def SingleCurrency (number : Text → JsNumber) (catalogue : Catalogue)
    (items : List OrderItemDto) : Prop :=
  ∃ currency, ∀ item ∈ items, ∀ id product, (number item.productId).toInt4 = some id →
    catalogue.find id = some product → product.currency = currency

/-- What a call has to ask for so that its order is in one currency. -/
def AsksForOneCurrency (number : Text → JsNumber) (store : Store Digest) : Action → Prop
  | .create dto _ _ _ | .createIdempotent dto _ _ _ _ =>
      SingleCurrency number store.catalogue dto.items
  | .checkout _ productId _ _ _ => ∀ product, store.catalogue.find productId = some product →
      product.currency = checkoutCurrency
  | _ => True

/-! ### What the loop leaves in its variables -/

/-- The items are those of `asked`, and the currency is the one of some item. -/
structure Looked (number : Text → JsNumber) (catalogue : Catalogue) (asked : List OrderItemDto)
    (cart : Cart) : Prop where
  items : ∀ dto ∈ asked, ∃ item ∈ cart.items, (number dto.productId).toInt4 = some item.productId
  asked : ∀ item ∈ cart.items, ∃ dto ∈ asked, (number dto.productId).toInt4 = some item.productId
  currency : cart.items = [] ∨ ∃ item ∈ cart.items, ∃ product,
    catalogue.find item.productId = some product ∧ product.currency = cart.currency

theorem Looked.priceItem {catalogue : Catalogue} {asked : List OrderItemDto} {cart cart' : Cart}
    {dto : OrderItemDto} (hlooked : Looked number catalogue asked cart)
    (hturn : Shop.priceItem number catalogue cart dto = .ok cart') :
    Looked number catalogue (asked ++ [dto]) cart' := by
  unfold Shop.priceItem at hturn
  split at hturn
  · cases hturn
  split at hturn
  · cases hturn
  rename_i id hid
  split at hturn
  · cases hturn
  rename_i product hproduct
  cases hturn
  have hproductId : (product.id : Int) = id := Catalogue.id_of_find hproduct
  have hadded : (⟨product.id, dto.quantity, product.priceCents⟩ : Orders.OrderItem) ∈
      (cart.add dto ⟨product.id, product.priceCents, product.currency⟩).items :=
    List.mem_append_right _ (List.mem_singleton_self _)
  constructor
  · intro other hother
    rcases List.mem_append.mp hother with hold | hnew
    · obtain ⟨item, hitem, hnumber⟩ := hlooked.items other hold
      exact ⟨item, List.mem_append_left _ hitem, hnumber⟩
    · rw [List.mem_singleton.mp hnew]
      exact ⟨_, hadded, hid.trans (congrArg some hproductId.symm)⟩
  · intro item hitem
    rcases List.mem_append.mp hitem with hold | hnew
    · obtain ⟨other, hother, hnumber⟩ := hlooked.asked item hold
      exact ⟨other, List.mem_append_left _ hother, hnumber⟩
    · rw [List.mem_singleton.mp hnew]
      exact ⟨dto, List.mem_append_right _ (List.mem_singleton_self _),
        hid.trans (congrArg some hproductId.symm)⟩
  · refine .inr ⟨_, hadded, product, ?_, rfl⟩
    change catalogue.find (product.id : Int) = some product
    rw [hproductId, hproduct]

theorem Looked.priceItems {catalogue : Catalogue} {asked rest : List OrderItemDto}
    {cart cart' : Cart} (hlooked : Looked number catalogue asked cart)
    (hloop : Shop.priceItems number catalogue cart rest = .ok cart') :
    Looked number catalogue (asked ++ rest) cart' := by
  induction rest generalizing asked cart with
  | nil =>
      cases hloop
      rwa [List.append_nil]
  | cons dto rest ih =>
      rw [Shop.priceItems] at hloop
      split at hloop
      · rename_i next hturn
        have hnext := ih (hlooked.priceItem hturn) hloop
        rwa [List.append_assoc, List.singleton_append] at hnext
      · cases hloop

theorem looked_of_insertOrder {dto : CreateOrderDto} {cart : Cart}
    (hloop : Shop.priceItems number store.catalogue .empty dto.items = .ok cart) :
    Looked number store.catalogue dto.items cart := by
  have hempty : Looked number store.catalogue [] .empty :=
    ⟨fun _ hdto => absurd hdto List.not_mem_nil, fun _ hitem => absurd hitem List.not_mem_nil,
      .inl rfl⟩
  exact hempty.priceItems hloop

/-- The order is in the currency of one of its products, so it is in one currency if they all
agree. -/
theorem Looked.inOneCurrency_iff {catalogue : Catalogue} {dto : CreateOrderDto} {cart : Cart}
    (hlooked : Looked number catalogue dto.items cart) (userId : Option UserId)
    (orderId : OrderId) :
    InOneCurrency catalogue ((Source.requested dto userId cart).orderRow orderId)
        ((Source.requested dto userId cart).itemRows orderId) ↔
      SingleCurrency number catalogue dto.items := by
  have hrows : ∀ item ∈ cart.items, (⟨orderId, item.productId, item.quantity,
      item.priceAtPurchaseCents⟩ : OrderItem) ∈
        (Source.requested dto userId cart).itemRows orderId :=
    fun item hitem => List.mem_map_of_mem hitem
  constructor
  · intro hone
    refine ⟨cart.currency, fun asked hasked id product hid hproduct => ?_⟩
    obtain ⟨item, hitem, hnumber⟩ := hlooked.items asked hasked
    cases hid.symm.trans hnumber
    exact hone _ (hrows item hitem) product hproduct
  · rintro ⟨currency, hsingle⟩
    have hcurrency : ∀ item ∈ cart.items, ∀ product, catalogue.find item.productId = some product →
        product.currency = currency := by
      intro item hitem product hproduct
      obtain ⟨asked, hasked, hnumber⟩ := hlooked.asked item hitem
      exact hsingle asked hasked _ product hnumber hproduct
    intro row hrow product hproduct
    obtain ⟨item, hitem, rfl⟩ := List.mem_map.mp hrow
    rcases hlooked.currency with hnone | ⟨last, hlast, lastProduct, hlastProduct, hlastCurrency⟩
    · rw [hnone] at hitem
      exact absurd hitem List.not_mem_nil
    · rw [hcurrency item hitem product hproduct]
      exact (hcurrency last hlast lastProduct hlastProduct).symm.trans hlastCurrency

/-! ### Every call -/

variable {order order' : OrderRow} {items items' : List OrderItem}

theorem Commits.eq (hcommits : Commits store after order items)
    (hcommits' : Commits store after order' items') : order' = order ∧ items' = items := by
  have horders := List.append_cancel_left (hcommits'.orders.symm.trans hcommits.orders)
  exact ⟨(List.cons.inj horders).1,
    List.append_cancel_left (hcommits'.items.symm.trans hcommits.items)⟩

theorem Commits.not_same (hcommits : Commits store after order items)
    (hsame : after.orders = store.orders) : False := by
  have hlength := congrArg List.length (hsame.symm.trans hcommits.orders)
  rw [List.length_append, List.length_singleton] at hlength
  omega

theorem inOneCurrency_insertOrder {dto : CreateOrderDto} {userId : Option UserId} {source : Source}
    {placed : Store Digest} {occurredAt now : Nat}
    (hplaced : insertOrderWithEvent number store dto userId occurredAt now = .ok (source, placed))
    (horders : after.orders = placed.orders) (hitems : after.orderItems = placed.orderItems)
    (hcatalogue : after.catalogue = placed.catalogue) (hcommits : Commits store after order items) :
    InOneCurrency after.catalogue order items ↔
      SingleCurrency number store.catalogue dto.items := by
  obtain ⟨cart, hloop, rfl, rfl⟩ := insertOrderWithEvent_spec hplaced
  obtain ⟨rfl, rfl⟩ := hcommits.eq ⟨horders, hitems⟩
  rw [hcatalogue]
  exact (looked_of_insertOrder hloop).inOneCurrency_iff userId store.nextOrderId

theorem inOneCurrency_sold {sale : Sale} {customerEmail : String} {occurredAt now : Nat}
    (hcommits : Commits store
      ((store.pay sale).write (.sold sale customerEmail) occurredAt now) order
      items) :
    InOneCurrency (store.pay sale).catalogue order items ↔
      ∀ product, store.catalogue.find sale.purchase.productId = some product →
        product.currency = checkoutCurrency := by
  obtain ⟨rfl, rfl⟩ := hcommits.eq ⟨rfl, rfl⟩
  have hcurrency : ∀ product : Products.Product, (Catalogue.reduceStock sale.purchase.productId
      sale.purchase.quantity product).currency = product.currency := by
    intro product
    unfold Catalogue.reduceStock
    split <;> rfl
  constructor
  · intro hone product hproduct
    have hpaid : (store.pay sale).catalogue.find sale.purchase.productId = _ := find_pay sale _
    rw [hproduct, Option.map_some] at hpaid
    exact (hcurrency product).symm.trans (hone _ (List.mem_singleton_self _) _ hpaid)
  · intro hone item hitem product hproduct
    rw [List.mem_singleton.mp hitem, find_pay] at hproduct
    obtain ⟨sold, hsold, rfl⟩ := Option.map_eq_some_iff.mp hproduct
    exact (hcurrency sold).trans (hone sold hsold)

/-- A committed order is in one currency exactly when the products that were asked for are. -/
theorem order_inOneCurrency_iff [DecidableEq Digest] (number : Text → JsNumber)
    (requestHash : CreateOrderDto → Digest) {store after : Store Digest} {action : Action}
    {order : OrderRow} {items : List OrderItem}
    (hstep : step number requestHash store action = some after)
    (hcommits : Commits store after order items) :
    InOneCurrency after.catalogue order items ↔ AsksForOneCurrency number store action := by
  cases action with
  | create dto userId occurredAt now =>
      cases hstep
      unfold create at hcommits ⊢
      cases hplaced : insertOrderWithEvent number store dto userId occurredAt now with
      | error failure =>
          rw [hplaced] at hcommits
          exact (hcommits.not_same rfl).elim
      | ok placed =>
          rw [hplaced] at hcommits
          exact inOneCurrency_insertOrder hplaced rfl rfl rfl hcommits
  | createIdempotent dto clientKey userId occurredAt now =>
      cases hstep
      unfold createIdempotent at hcommits ⊢
      dsimp only at hcommits ⊢
      cases hkey : store.keys (Orders.Request.idempotencyKey ⟨dto, clientKey, userId⟩) with
      | some existing =>
          rw [hkey] at hcommits
          exact (hcommits.not_same rfl).elim
      | none =>
          rw [hkey] at hcommits
          cases hplaced : insertOrderWithEvent number store dto userId occurredAt now with
          | error failure =>
              rw [hplaced] at hcommits
              exact (hcommits.not_same rfl).elim
          | ok placed =>
              rw [hplaced] at hcommits
              exact inOneCurrency_insertOrder hplaced rfl rfl rfl hcommits
  | checkout userId productId quantity occurredAt now =>
      cases hstep
      unfold checkout at hcommits ⊢
      cases hsale : checkSale store userId productId quantity with
      | error error =>
          rw [hsale] at hcommits
          exact (hcommits.not_same rfl).elim
      | ok sold =>
          obtain ⟨sale, customerEmail⟩ := sold
          rw [hsale] at hcommits
          obtain ⟨rfl, -⟩ := checkSale_spec hsale
          exact inOneCurrency_sold hcommits
  | createProduct dto =>
      cases hstep
      exact (hcommits.not_same rfl).elim
  | getCard productId =>
      cases hstep
      refine (hcommits.not_same ?_).elim
      unfold getCard
      split
      · rfl
      · split <;> rfl
  | expire key =>
      cases hstep
      exact (hcommits.not_same rfl).elim
  | fail orderIds productIds =>
      cases hstep
      exact (hcommits.not_same rfl).elim

/-- A lamp in hryvnias and a book in dollars, and a buyer who can pay for both. -/
def bookStore : Store CreateOrderDto :=
  { lampStore with
    catalogue :=
      { rows := [⟨3, "Lamp", 100, 5, "UAH"⟩, ⟨4, "Book", 7, 5, "USD"⟩]
        sorted := by decide
        serial := by decide
        nextId := 5
        positive := by decide
        fresh := by decide } }

def lampOrder : OrderRow := ⟨1, none, "ada@example.com", "created", 200, "UAH"⟩

theorem order_inOneCurrency_lamp :
    InOneCurrency bookStore.catalogue lampOrder [⟨1, 3, 2, 100⟩] := by
  have hstep : step readDecimal (fun dto => dto) bookStore
      (.create ⟨"ada@example.com", [⟨['3'], 2⟩]⟩ none 0 0) = some _ := rfl
  apply (order_inOneCurrency_iff readDecimal (fun dto => dto) hstep ⟨by decide, by decide⟩).mpr
  refine ⟨"UAH", fun item hitem id product hid hproduct => ?_⟩
  rw [List.mem_singleton.mp hitem] at hid
  cases hid
  cases hproduct
  rfl

/-- Two lamps for 200 kopiykas and a book for 7 cents make 207 cents, and a checkout takes 7
kopiykas for the book. -/
theorem order_mixes_currencies :
    (∃ after order items, step readDecimal (fun dto => dto) bookStore
        (.create ⟨"ada@example.com", [⟨['3'], 2⟩, ⟨['4'], 1⟩]⟩ none 0 0) = some after ∧
      Commits bookStore after order items ∧ ¬ InOneCurrency after.catalogue order items) ∧
    ∃ after order items, step readDecimal (fun dto => dto) bookStore
        (.checkout 7 4 (.integer 1) 0 0) = some after ∧
      Commits bookStore after order items ∧ ¬ InOneCurrency after.catalogue order items := by
  constructor
  · refine ⟨_, ⟨1, none, "ada@example.com", "created", 207, "USD"⟩,
      [⟨1, 3, 2, 100⟩, ⟨1, 4, 1, 7⟩], rfl, ⟨by decide +kernel, by decide +kernel⟩, fun hone => ?_⟩
    have hlamp :=
      hone ⟨1, 3, 2, 100⟩ List.mem_cons_self ⟨3, "Lamp", 100, 5, "UAH"⟩ (by decide +kernel)
    exact absurd hlamp (by decide)
  · refine ⟨_, ⟨1, some 7, "ada@example.com", "paid", 7, "UAH"⟩, [⟨1, 4, 1, 7⟩], rfl,
      ⟨by decide +kernel, by decide +kernel⟩, fun hone => ?_⟩
    have hbook := hone ⟨1, 4, 1, 7⟩ List.mem_cons_self ⟨4, "Book", 7, 4, "USD"⟩ (by decide +kernel)
    exact absurd hbook (by decide)

end Marketplace.Shop
