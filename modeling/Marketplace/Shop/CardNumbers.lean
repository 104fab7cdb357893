import Mathlib.Algebra.Order.BigOperators.Group.List
import Mathlib.Order.Interval.Finset.Nat
import Marketplace.Shop.ProductCards

/-!
# The numbers of a product card

Each order is bounded by the `integer` columns, and there are no more orders than the serial has
ids. The sum of the quantities is cast back to `integer` all the same, and the revenue goes through
a double.
-/

namespace Marketplace.Shop

open Checkout (JsNumber OrderItem)
open Orders (Cart CreateOrderDto OrderItemDto)
open Placing (Source)
open Products (Catalogue CreateProductDto)
open Transition

variable {Digest : Type} {number : Text → JsNumber} {requestHash : CreateOrderDto → Digest}
  {store after : Store Digest} {productId : ProductId}

/-- `Number` of the digits of a natural number is the double that is nearest to it. -/
def RoundsDecimals (number : Text → JsNumber) : Prop :=
  ∀ value : Nat, value < 2 ^ 64 → number (decimal value) = .integer (Double.round value)

/-- The first start of the service; users have registered. -/
def Store.init (users : UserId → Option Checkout.User) : Store Digest where
  users := users
  catalogue :=
    { Products.ProductTable.empty with
      nextId := 1
      positive := Nat.one_pos
      fresh := by simp [Products.ProductTable.empty] }
  orders := []
  orderItems := []
  outbox := []
  keys := fun _ => none
  nextOrderId := 1
  cache := fun _ => none

/-- `POST /products` and `POST /orders`, with what their bodies are checked for. -/
def Posted (_ : Store Digest) : Action → Prop
  | .create dto _ _ _ | .createIdempotent dto _ _ _ _ => ∀ item ∈ dto.items, 1 ≤ item.quantity
  | .createProduct dto => 1 ≤ dto.priceCents ∧ dto.priceCents ≤ 1000000000
  | .checkout _ _ _ _ _ => False
  | _ => True

instance (store : Store Digest) (action : Action) : Decidable (Posted store action) :=
  match action with
  | .create dto _ _ _ | .createIdempotent dto _ _ _ _ =>
      inferInstanceAs (Decidable (∀ item ∈ dto.items, 1 ≤ item.quantity))
  | .createProduct dto =>
      inferInstanceAs (Decidable (1 ≤ dto.priceCents ∧ dto.priceCents ≤ 1000000000))
  | .checkout _ _ _ _ _ => inferInstanceAs (Decidable False)
  | .getCard _ | .expire _ | .fail _ _ => inferInstanceAs (Decidable True)

def unitsOf (items : List OrderItem) : Int := (items.map OrderItem.quantity).sum

def revenueOf (items : List OrderItem) : Int :=
  (items.map fun item => item.quantity * item.priceAtPurchaseCents).sum

def ordersOf (items : List OrderItem) : List OrderId := (items.map OrderItem.orderId).dedup

/-- The numbers of the card are those of the rows. -/
structure ProductCard.Exact (card : ProductCard) (items : List OrderItem) : Prop where
  unitsSold : card.unitsSold = unitsOf items
  revenueCents : card.revenueCents = .integer (revenueOf items)
  ordersCount : card.ordersCount = (ordersOf items).length

/-- `loadCard` succeeds, and a card that it returns is exact. -/
def LoadsExactly (number : Text → JsNumber) (store : Store Digest) (productId : ProductId) : Prop :=
  ∃ answer, loadCard number store productId = some answer ∧
    ∀ card, answer = some card → card.Exact (store.itemsOf productId)

/-! ### What the orders leave in the tables -/

structure Sold (item : OrderItem) : Prop where
  quantity : 0 < item.quantity
  price : 0 < item.priceAtPurchaseCents

/-- An order is worth no more than its column holds. -/
structure Bounded (store : Store Digest) : Prop where
  prices : ∀ product ∈ store.catalogue.rows, 0 < product.priceCents
  sold : ∀ item ∈ store.orderItems, Sold item
  ids : ∀ item ∈ store.orderItems,
    0 < item.orderId ∧ item.orderId < store.nextOrderId ∧ item.orderId ≤ 2147483647
  started : 0 < store.nextOrderId
  revenue : revenueOf store.orderItems ≤ (min (store.nextOrderId - 1) 2147483647 : Nat) * 2147483647

theorem bounded_init (users : UserId → Option Checkout.User) :
    Bounded (Store.init users : Store Digest) where
  prices := by simp [Store.init, Products.ProductTable.empty]
  sold := by simp [Store.init]
  ids := by simp [Store.init]
  started := Nat.one_pos
  revenue := by simp [Store.init, revenueOf]

/-- The cart after some turns of the loop over valid items. -/
structure Filled (cart : Cart) : Prop where
  exact : cart.Exact
  items : ∀ item ∈ cart.items, 0 < item.quantity ∧ 0 < item.priceAtPurchaseCents

theorem Filled.priceItem {catalogue : Catalogue} {cart cart' : Cart} {item : OrderItemDto}
    (hfilled : Filled cart) (hprices : ∀ product ∈ catalogue.rows, 0 < product.priceCents)
    (hitem : 1 ≤ item.quantity) (hturn : Shop.priceItem number catalogue cart item = .ok cart') :
    Filled cart' := by
  unfold Shop.priceItem at hturn
  split at hturn
  · cases hturn
  split at hturn
  · cases hturn
  split at hturn
  · cases hturn
  rename_i product hproduct
  cases hturn
  have hprice : 0 < product.priceCents := hprices product (List.mem_of_find?_eq_some hproduct)
  constructor
  · apply hfilled.exact.add
    · exact hprice.le
    · omega
  · intro row hrow
    rcases List.mem_append.mp hrow with hold | hnew
    · exact hfilled.items row hold
    · rw [List.mem_singleton.mp hnew]
      exact ⟨by dsimp only; omega, hprice⟩

theorem Filled.priceItems {catalogue : Catalogue} {cart cart' : Cart} {rest : List OrderItemDto}
    (hfilled : Filled cart) (hprices : ∀ product ∈ catalogue.rows, 0 < product.priceCents)
    (hrest : ∀ item ∈ rest, 1 ≤ item.quantity)
    (hloop : Shop.priceItems number catalogue cart rest = .ok cart') : Filled cart' := by
  induction rest generalizing cart with
  | nil =>
      cases hloop
      exact hfilled
  | cons item rest ih =>
      rw [Shop.priceItems] at hloop
      split at hloop
      · rename_i next hturn
        apply ih (hfilled.priceItem hprices (hrest item (by simp)) hturn) _ hloop
        exact fun other hother => hrest other (by simp [hother])
      · cases hloop

theorem revenueOf_append (left right : List OrderItem) :
    revenueOf (left ++ right) = revenueOf left + revenueOf right := by
  simp [revenueOf]

theorem revenueOf_itemRows (dto : CreateOrderDto) (userId : Option UserId) (cart : Cart)
    (id : OrderId) :
    revenueOf ((Source.requested dto userId cart).itemRows id) = Orders.sumOf cart.items := by
  simp only [revenueOf, Source.itemRows, Orders.sumOf, List.map_map]
  congr 1
  apply List.map_congr_left
  intro item _
  exact Int.mul_comm _ _

theorem one_order_more {next : Nat} {revenue total : Int} (hstarted : 0 < next)
    (hserial : next ≤ 2147483647)
    (hrevenue : revenue ≤ (min (next - 1) 2147483647 : Nat) * 2147483647)
    (htotal : total ≤ 2147483647) :
    revenue + total ≤ (min (next + 1 - 1) 2147483647 : Nat) * 2147483647 := by
  omega

theorem Bounded.write (hbounded : Bounded store) {dto : CreateOrderDto} {userId : Option UserId}
    {cart : Cart} (hfilled : Filled cart) (hfits : cart.fits = true)
    (hserial : store.nextOrderId ≤ 2147483647) (occurredAt now : Nat) :
    Bounded (store.write (.requested dto userId cart) occurredAt now) := by
  have htotal : Orders.sumOf cart.items ≤ 2147483647 := by
    have hcolumn : fitsInt4 cart.totalCents = true := (Bool.and_eq_true _ _ ▸ hfits).1
    rw [← hfilled.exact.total_eq hcolumn]
    simp only [fitsInt4, Bool.and_eq_true, decide_eq_true_eq] at hcolumn
    exact hcolumn.2
  constructor
  · exact hbounded.prices
  · intro item hitem
    rcases List.mem_append.mp hitem with hold | hnew
    · exact hbounded.sold item hold
    · obtain ⟨row, hrow, rfl⟩ := List.mem_map.mp hnew
      exact ⟨(hfilled.items row hrow).1, (hfilled.items row hrow).2⟩
  · intro item hitem
    rcases List.mem_append.mp hitem with hold | hnew
    · obtain ⟨hpositive, hbefore, hlimit⟩ := hbounded.ids item hold
      exact ⟨hpositive, Nat.lt_succ_of_lt hbefore, hlimit⟩
    · obtain ⟨row, -, rfl⟩ := List.mem_map.mp hnew
      exact ⟨hbounded.started, Nat.lt_succ_self _, hserial⟩
  · exact Nat.succ_pos _
  · change revenueOf (store.orderItems ++ _) ≤ _
    rw [revenueOf_append, revenueOf_itemRows]
    exact one_order_more hbounded.started hserial hbounded.revenue htotal

theorem Bounded.insertOrderWithEvent (hbounded : Bounded store) {dto : CreateOrderDto}
    {userId : Option UserId} {source : Source} {occurredAt now : Nat}
    (hvalid : ∀ item ∈ dto.items, 1 ≤ item.quantity)
    (hplaced : Shop.insertOrderWithEvent number store dto userId occurredAt now =
      .ok (source, after)) :
    Bounded after := by
  unfold Shop.insertOrderWithEvent at hplaced
  split at hplaced
  · cases hplaced
  · rename_i cart hloop
    split at hplaced
    · rename_i hchecks
      cases hplaced
      simp only [Bool.and_eq_true, decide_eq_true_eq] at hchecks
      have hempty : Filled .empty := ⟨Cart.exact_empty, by simp [Cart.empty]⟩
      exact hbounded.write (hempty.priceItems hbounded.prices hvalid hloop) hchecks.1.1
        hchecks.2 _ _
    · cases hplaced

/-- What the rows are not concerned with: the card cache and the keys, and a serial that goes on. -/
theorem Bounded.keep (hbounded : Bounded store)
    (hrows : ∀ product ∈ after.catalogue.rows, 0 < product.priceCents)
    (hitems : after.orderItems = store.orderItems)
    (hserial : store.nextOrderId ≤ after.nextOrderId) :
    Bounded after where
  prices := hrows
  sold := by
    rw [hitems]
    exact hbounded.sold
  ids := by
    rw [hitems]
    intro item hitem
    obtain ⟨hpositive, hbefore, hlimit⟩ := hbounded.ids item hitem
    exact ⟨hpositive, Nat.lt_of_lt_of_le hbefore hserial, hlimit⟩
  started := Nat.lt_of_lt_of_le hbounded.started hserial
  revenue := by
    rw [hitems]
    apply hbounded.revenue.trans
    have hmin : min (store.nextOrderId - 1) 2147483647 ≤ min (after.nextOrderId - 1) 2147483647 :=
      min_le_min_right _ (Nat.sub_le_sub_right hserial 1)
    exact Int.mul_le_mul_of_nonneg_right (Int.ofNat_le.mpr hmin) (by decide)

theorem prices_create {catalogue : Catalogue} {dto : CreateProductDto}
    (hprices : ∀ product ∈ catalogue.rows, 0 < product.priceCents) (hprice : 1 ≤ dto.priceCents) :
    ∀ product ∈ (Products.create catalogue dto).2.rows, 0 < product.priceCents := by
  intro product hproduct
  unfold Products.create at hproduct
  split at hproduct
  · rcases List.mem_append.mp hproduct with hold | hnew
    · exact hprices product hold
    · rw [List.mem_singleton.mp hnew]
      exact hprice
  · split at hproduct <;> exact hprices product hproduct

theorem Bounded.step [DecidableEq Digest] (hbounded : Bounded store) {action : Action}
    (hposted : Posted store action)
    (hstep : Shop.step number requestHash store action = some after) : Bounded after := by
  cases action with
  | create dto userId occurredAt now =>
      cases hstep
      unfold Shop.create
      split
      · exact hbounded
      · rename_i source placed hplaced
        exact (hbounded.insertOrderWithEvent hposted hplaced).keep
          (hbounded.insertOrderWithEvent hposted hplaced).prices rfl (Nat.le_refl _)
  | createIdempotent dto clientKey userId occurredAt now =>
      cases hstep
      unfold Shop.createIdempotent
      dsimp only
      split
      · exact hbounded
      · split
        · exact hbounded
        · rename_i source placed hplaced
          exact (hbounded.insertOrderWithEvent hposted hplaced).keep
            (hbounded.insertOrderWithEvent hposted hplaced).prices rfl (Nat.le_refl _)
  | checkout userId productId quantity occurredAt now => exact hposted.elim
  | createProduct dto =>
      cases hstep
      exact hbounded.keep (prices_create hbounded.prices hposted.1) rfl (Nat.le_refl _)
  | getCard productId =>
      cases hstep
      unfold Shop.getCard
      split
      · exact hbounded
      · split
        · exact hbounded
        · exact hbounded.keep hbounded.prices rfl (Nat.le_refl _)
  | expire key =>
      cases hstep
      exact hbounded.keep hbounded.prices rfl (Nat.le_refl _)
  | fail orderIds productIds =>
      cases hstep
      exact hbounded.keep hbounded.prices rfl (Nat.le_add_right _ _)

/-! ### The card of one product -/

theorem sum_filter_nonneg {f : OrderItem → Int} {p : OrderItem → Bool} {items : List OrderItem}
    (hnonneg : ∀ item ∈ items, 0 ≤ f item) :
    0 ≤ ((items.filter p).map f).sum ∧ ((items.filter p).map f).sum ≤ (items.map f).sum := by
  have hall : ∀ value ∈ items.map f, 0 ≤ value := by
    intro value hvalue
    obtain ⟨item, hitem, rfl⟩ := List.mem_map.mp hvalue
    exact hnonneg item hitem
  constructor
  · apply List.sum_nonneg
    intro value hvalue
    obtain ⟨item, hitem, rfl⟩ := List.mem_map.mp hvalue
    exact hnonneg item (List.mem_of_mem_filter hitem)
  · exact (List.filter_sublist.map f).sum_le_sum hall

/-- The orders are counted by their ids, which are those of a serial. -/
theorem Bounded.ordersOf_le (hbounded : Bounded store) (productId : ProductId) :
    (ordersOf (store.itemsOf productId)).length ≤ 2147483647 := by
  have hsubset : (ordersOf (store.itemsOf productId)).toFinset ⊆ Finset.Icc 1 2147483647 := by
    intro id hid
    simp only [ordersOf, List.mem_toFinset, List.mem_dedup, List.mem_map] at hid
    obtain ⟨item, hitem, rfl⟩ := hid
    obtain ⟨hpositive, -, hlimit⟩ := hbounded.ids item (List.mem_of_mem_filter hitem)
    exact Finset.mem_Icc.mpr ⟨hpositive, hlimit⟩
  have hcard := Finset.card_le_card hsubset
  have hnodup : (ordersOf (store.itemsOf productId)).Nodup := List.nodup_dedup _
  rwa [Nat.card_Icc, List.toFinset_card_of_nodup hnodup] at hcard

/-- Every sum of a card is that of natural numbers, and the revenue is far below the largest
double. -/
theorem Bounded.sums (hbounded : Bounded store) (productId : ProductId) :
    0 ≤ unitsOf (store.itemsOf productId) ∧ ∃ revenue : Nat,
      revenueOf (store.itemsOf productId) = revenue ∧ revenue < 2 ^ 64 := by
  have hunits : 0 ≤ unitsOf (store.itemsOf productId) :=
    (sum_filter_nonneg fun item hitem => (hbounded.sold item hitem).quantity.le).1
  obtain ⟨hnonneg, hle⟩ : 0 ≤ revenueOf (store.itemsOf productId) ∧
      revenueOf (store.itemsOf productId) ≤ revenueOf store.orderItems :=
    sum_filter_nonneg fun item hitem =>
      Int.mul_nonneg (hbounded.sold item hitem).quantity.le (hbounded.sold item hitem).price.le
  refine ⟨hunits, (revenueOf (store.itemsOf productId)).toNat, by omega, ?_⟩
  have hrevenue := hbounded.revenue
  omega

/-- `loadCard` is exact for an id of the column, if the units of the product fit the column and its
revenue is a double. -/
theorem Bounded.loadsExactly_iff (hbounded : Bounded store) (hnumber : RoundsDecimals number)
    (productId : ProductId) :
    LoadsExactly number store productId ↔ fitsInt4 productId = true ∧
      ∀ product, store.catalogue.find productId = some product →
        unitsOf (store.itemsOf productId) ≤ 2147483647 ∧
          Double.round (revenueOf (store.itemsOf productId)) =
            revenueOf (store.itemsOf productId) := by
  obtain ⟨hunits, revenue, hrevenue, hsmall⟩ := hbounded.sums productId
  have horders := hbounded.ordersOf_le productId
  unfold LoadsExactly loadCard
  by_cases hid : fitsInt4 productId = true
  · rw [if_pos hid]
    cases hfind : store.catalogue.find productId with
    | none => simp [hid]
    | some product =>
        have hrounded : (cardOf number product (store.itemsOf productId)).revenueCents =
            .integer (Double.round revenue) := by
          rw [← hnumber revenue hsmall, ← hrevenue]
          rfl
        have hfitsOrders :
            fitsInt4 (cardOf number product (store.itemsOf productId)).ordersCount = true := by
          change fitsInt4 ((ordersOf (store.itemsOf productId)).length : Int) = true
          simp only [fitsInt4, Bool.and_eq_true, decide_eq_true_eq]
          omega
        have hfitsUnits :
            fitsInt4 (cardOf number product (store.itemsOf productId)).unitsSold = true ↔
            unitsOf (store.itemsOf productId) ≤ 2147483647 := by
          change fitsInt4 (unitsOf (store.itemsOf productId)) = true ↔ _
          simp only [fitsInt4, Bool.and_eq_true, decide_eq_true_eq]
          omega
        have hexact :
            (cardOf number product (store.itemsOf productId)).Exact (store.itemsOf productId) ↔
            Double.round (revenueOf (store.itemsOf productId)) =
              revenueOf (store.itemsOf productId) := by
          constructor
          · intro hcard
            have hvalue := hcard.revenueCents
            rw [hrounded, JsNumber.integer.injEq] at hvalue
            rw [hrevenue] at hvalue ⊢
            exact hvalue
          · intro hround
            refine ⟨rfl, ?_, rfl⟩
            rw [hrounded, ← hrevenue, hround]
        simp [hid, hfitsOrders, hfitsUnits, hexact]
  · simp [hid]

/-- After any history of posts the card of a product loads and is exact if and only if its units fit
the column again and its revenue is a double. -/
theorem loadCard_exact_iff [DecidableEq Digest] (hnumber : RoundsDecimals number)
    {users : UserId → Option Checkout.User} {store : Store Digest}
    (hreach : Reach (step number requestHash) Posted (Store.init users) store)
    (productId : ProductId) :
    LoadsExactly number store productId ↔ fitsInt4 productId = true ∧
      ∀ product, store.catalogue.find productId = some product →
        unitsOf (store.itemsOf productId) ≤ 2147483647 ∧
          Double.round (revenueOf (store.itemsOf productId)) =
            revenueOf (store.itemsOf productId) := by
  have hbounded : Bounded store := by
    apply Reach.invariant Bounded (bounded_init users) _ hreach
    intro state action next _ hstate hposted hstep
    exact hstate.step hposted hstep
  exact hbounded.loadsExactly_iff hnumber productId

/-- `Number` on decimal digits, with the rounding of a double. -/
def roundDecimal (text : Text) : JsNumber :=
  match readDecimal text with
  | .integer value => .integer (Double.round value)
  | .other text => .other text

theorem roundsDecimals_roundDecimal : RoundsDecimals roundDecimal := by
  intro value _
  rw [roundDecimal, readDecimal_decimal]

/-- A pin for one kopiyka, and two orders that take as many as the column holds, and one more. -/
def pinPosts : List Action :=
  [.createProduct ⟨"Pin", 1, 0, none⟩,
    .create ⟨"ada@example.com", [⟨['1'], 2147483646⟩]⟩ none 0 0,
    .create ⟨"bob@example.com", [⟨['1'], 1⟩]⟩ (some 7) 0 0]

theorem loadCard_exact_pin : ∃ store : Store CreateOrderDto,
    Reach (step roundDecimal fun dto => dto) Posted (Store.init fun userId =>
      if userId = 7 then some ⟨"bob@example.com", 0⟩ else none) store ∧
      unitsOf (store.itemsOf 1) = 2147483647 ∧ LoadsExactly roundDecimal store 1 := by
  obtain ⟨store, hreach, hcheck⟩ : ∃ store : Store CreateOrderDto,
      Reach (step roundDecimal fun dto => dto) Posted (Store.init fun userId =>
        if userId = 7 then some ⟨"bob@example.com", 0⟩ else none) store ∧
      decide (unitsOf (store.itemsOf 1) = 2147483647 ∧ Double.round (revenueOf (store.itemsOf 1)) =
        revenueOf (store.itemsOf 1)) = true :=
    exists_reach_of_runWithin pinPosts (by decide +kernel)
  obtain ⟨hunits, hrevenue⟩ := of_decide_eq_true hcheck
  refine ⟨store, hreach, hunits, ?_⟩
  apply (loadCard_exact_iff roundsDecimals_roundDecimal hreach 1).mpr
  exact ⟨by decide, fun _ _ => ⟨hunits.le, hrevenue⟩⟩

/-- One pin too many, and the card of the pin does not load any more. -/
theorem loadCard_overflows : ∃ store : Store CreateOrderDto,
    Reach (step roundDecimal fun dto => dto) Posted (Store.init fun userId =>
      if userId = 7 then some ⟨"bob@example.com", 0⟩ else none) store ∧
      loadCard roundDecimal store 1 = none ∧ ¬ LoadsExactly roundDecimal store 1 := by
  obtain ⟨store, hreach, hcheck⟩ : ∃ store : Store CreateOrderDto,
      Reach (step roundDecimal fun dto => dto) Posted (Store.init fun userId =>
        if userId = 7 then some ⟨"bob@example.com", 0⟩ else none) store ∧
      decide (loadCard roundDecimal store 1 = none) = true :=
    exists_reach_of_runWithin (pinPosts ++ [.create ⟨"eve@example.com", [⟨['1'], 1⟩]⟩ none 0 0])
      (by decide +kernel)
  have hnone := of_decide_eq_true hcheck
  refine ⟨store, hreach, hnone, ?_⟩
  rintro ⟨answer, hanswer, -⟩
  rw [hnone] at hanswer
  cases hanswer

end Marketplace.Shop
