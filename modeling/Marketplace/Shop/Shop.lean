import Marketplace.Orders.Placing
import Marketplace.Products.ProductsService

/-!
# The shop, one operation at a time

`create`, `createIdempotent`, `checkout`, `ProductsService.create` and `ProductCardService.getCard`
as functions on the whole database and the cache, when no two of them overlap. Redis is available;
an entry may expire or be evicted at any time.
-/

namespace Marketplace.Shop

open Checkout (CheckoutError JsNumber OrderItem Sale User)
open Orders (Cart CreateOrderDto Failure KeyRow OrderItemDto OrderResponse Request)
open Placing (OrderRow Source amountOf)
open Products (Catalogue CreateProductDto)

structure ProductCard where
  id : Text
  name : String
  priceCents : Int
  currency : String
  stock : Int
  unitsSold : Int
  revenueCents : JsNumber
  ordersCount : Int
  deriving DecidableEq

def cardKey (productId : ProductId) : Text :=
  ['p', 'r', 'o', 'd', 'u', 'c', 't', ':', 'c', 'a', 'r', 'd', ':'] ++ decimal productId

structure Store (Digest : Type) where
  users : UserId → Option User
  catalogue : Catalogue
  orders : List OrderRow
  orderItems : List OrderItem
  outbox : List OutboxRow
  keys : Text → Option (KeyRow Digest)
  nextOrderId : OrderId
  /-- The values of the Redis keys; `some none` is the text `null`. -/
  cache : Text → Option (Option ProductCard)

section Operations

variable {Digest : Type} (number : Text → JsNumber) (requestHash : CreateOrderDto → Digest)
  (store : Store Digest)

/-! ### Product cards -/

/-- The rows that the card of a product sums over. -/
def Store.itemsOf (productId : ProductId) : List OrderItem :=
  store.orderItems.filter fun item => item.productId = productId

def cardOf (product : Products.Product) (items : List OrderItem) : ProductCard where
  id := decimal product.id
  name := product.name
  priceCents := product.priceCents
  currency := product.currency
  stock := product.stock
  unitsSold := (items.map OrderItem.quantity).sum
  revenueCents :=
    number (decimal (items.map fun item => item.quantity * item.priceAtPurchaseCents).sum)
  ordersCount := (items.map OrderItem.orderId).dedup.length

/-- `ProductCardRepository.loadCard`. Outer `none`: the query fails, on an id or a sum that is no
`integer`. -/
def loadCard (productId : ProductId) : Option (Option ProductCard) :=
  if fitsInt4 productId then
    match store.catalogue.find productId with
    | none => some none
    | some product =>
        let card := cardOf number product (store.itemsOf productId)
        if fitsInt4 card.unitsSold && fitsInt4 card.ordersCount then some (some card) else none
  else none

/-- `ProductCardService.getCard`: on a miss the lock is free, and the second look is a miss as
well. -/
def getCard (productId : ProductId) : Option (Option ProductCard) × Store Digest :=
  match store.cache (cardKey productId) with
  | some value => (some value, store)
  | none =>
      match loadCard number store productId with
      | none => (none, store)
      | some fresh =>
          (some fresh,
            { store with cache := Function.update store.cache (cardKey productId) (some fresh) })

/-- `invalidate` of each product. -/
def invalidateCards (productIds : List ProductId) : Store Digest :=
  { store with cache := fun key => if key ∈ productIds.map cardKey then none else store.cache key }

/-! ### Orders -/

/-- One turn of the loop of `insertOrderWithEvent`. -/
def priceItem (catalogue : Catalogue) (cart : Cart) (item : OrderItemDto) : Except Failure Cart :=
  if (number item.productId).isNaN then .error (.productNotFound item.productId)
  else
    match (number item.productId).toInt4 with
    | none => .error .internal
    | some id =>
        match catalogue.find id with
        | none => .error (.productNotFound item.productId)
        | some product => .ok (cart.add item ⟨product.id, product.priceCents, product.currency⟩)

def priceItems (catalogue : Catalogue) : Cart → List OrderItemDto → Except Failure Cart
  | cart, [] => .ok cart
  | cart, item :: rest =>
      match priceItem number catalogue cart item with
      | .ok cart => priceItems catalogue cart rest
      | .error failure => .error failure

/-- The rows of one order. -/
def Store.write (source : Source) (occurredAt now : Nat) : Store Digest :=
  { store with
    orders := store.orders ++ [source.orderRow store.nextOrderId]
    orderItems := store.orderItems ++ source.itemRows store.nextOrderId
    outbox := store.outbox ++
      [enqueueOrderPlaced (source.eventData store.nextOrderId) occurredAt now]
    nextOrderId := store.nextOrderId + 1 }

def Store.hasUser (userId : Option UserId) : Bool :=
  userId.all fun userId => (store.users userId).isSome

/-- `insertOrderWithEvent`, and with it the transaction commits. -/
def insertOrderWithEvent (dto : CreateOrderDto) (userId : Option UserId) (occurredAt now : Nat) :
    Except Failure (Source × Store Digest) :=
  match priceItems number store.catalogue .empty dto.items with
  | .error failure => .error failure
  | .ok cart =>
      if cart.fits && store.hasUser userId && decide (store.nextOrderId ≤ 2147483647) then
        let source := Source.requested dto userId cart
        .ok (source, store.write source occurredAt now)
      else .error .internal

def productIdsOf (source : Source) : List ProductId := (source.itemRows 0).map OrderItem.productId

def responseOf (order : OrderRow) (items : List OrderItem) : OrderResponse where
  id := decimal order.id
  items := items.map fun item => (decimal item.productId, item.quantity)
  totalCents := order.totalCents
  currency := order.currency
  status := order.status

def create (dto : CreateOrderDto) (userId : Option UserId) (occurredAt now : Nat) :
    Except Failure OrderResponse × Store Digest :=
  match insertOrderWithEvent number store dto userId occurredAt now with
  | .error failure => (.error failure, store)
  | .ok (source, after) =>
      (.ok (responseOf (source.orderRow store.nextOrderId) (source.itemRows store.nextOrderId)),
        invalidateCards after (productIdsOf source))

def findOne (orderId : OrderId) : Option OrderResponse :=
  (store.orders.find? fun order => order.id = orderId).map fun order =>
    responseOf order (store.orderItems.filter fun item => item.orderId = orderId)

/-- The answer to a key that is taken. -/
def replay [DecidableEq Digest] (dto : CreateOrderDto) (existing : KeyRow Digest) :
    Except Failure (OrderResponse × Bool) :=
  if existing.requestHash ≠ requestHash dto then .error .keyReused
  else
    match existing.orderId with
    | none => .error (.orderNotFound ['n', 'u', 'l', 'l'])
    | some orderId =>
        match findOne store orderId with
        | none => .error (.orderNotFound (decimal orderId))
        | some order => .ok (order, true)

def createIdempotent [DecidableEq Digest] (dto : CreateOrderDto) (clientKey : Text)
    (userId : Option UserId) (occurredAt now : Nat) :
    Except Failure (OrderResponse × Bool) × Store Digest :=
  let key := Request.idempotencyKey ⟨dto, clientKey, userId⟩
  match store.keys key with
  | some existing => (replay requestHash store dto existing, store)
  | none =>
      match insertOrderWithEvent number store dto userId occurredAt now with
      | .error failure => (.error failure, store)
      | .ok (source, after) =>
          let row : KeyRow Digest := ⟨requestHash dto, some store.nextOrderId⟩
          (.ok (responseOf (source.orderRow store.nextOrderId)
            (source.itemRows store.nextOrderId), false),
            invalidateCards { after with keys := Function.update after.keys key (some row) }
              (productIdsOf source))

/-! ### Checkout -/

/-- The checks of the two UPDATEs: what is sold, and the email of the buyer. -/
def checkSale (userId : UserId) (productId : ProductId) (quantity : JsNumber) :
    Except CheckoutError (Sale × String) :=
  match quantity with
  | .other _ => .error (.quantityNotPositive quantity)
  | .integer value =>
      if positive : 0 < value then
        if fitsInt4 value && fitsInt4 productId then
          match store.catalogue.find productId with
          | none => .error (.insufficientStock productId)
          | some product =>
              if value ≤ product.stock then
                let sale : Sale := ⟨⟨userId, productId, value, positive⟩, product.priceCents⟩
                if fitsInt4 (amountOf sale) && fitsInt4 userId then
                  match store.users userId with
                  | none => .error (.insufficientFunds userId)
                  | some user =>
                      if amountOf sale ≤ user.balanceCents then
                        if fitsInt4 (user.balanceCents - amountOf sale) &&
                            decide (store.nextOrderId ≤ 2147483647) then
                          .ok (sale, user.email)
                        else .error .statementFailed
                      else .error (.insufficientFunds userId)
                else .error .statementFailed
              else .error (.insufficientStock productId)
        else .error .statementFailed
      else .error (.quantityNotPositive quantity)

/-- The two UPDATEs. -/
def Store.pay (sale : Sale) : Store Digest :=
  { store with
    catalogue := store.catalogue.takeStock sale.purchase.productId sale.purchase.quantity
    users := Function.update store.users sale.purchase.userId
      ((store.users sale.purchase.userId).map fun user =>
        { user with balanceCents := user.balanceCents - amountOf sale }) }

def checkout (userId : UserId) (productId : ProductId) (quantity : JsNumber)
    (occurredAt now : Nat) :
    Except CheckoutError OrderId × Store Digest :=
  match checkSale store userId productId quantity with
  | .error error => (.error error, store)
  | .ok (sale, customerEmail) =>
      (.ok store.nextOrderId, (store.pay sale).write (.sold sale customerEmail) occurredAt now)

/-- `ProductsService.create`. -/
def createProduct (dto : CreateProductDto) : Store Digest :=
  { store with catalogue := (Products.create store.catalogue dto).2 }

end Operations

inductive Action where
  | create (dto : CreateOrderDto) (userId : Option UserId) (occurredAt now : Nat)
  | createIdempotent (dto : CreateOrderDto) (clientKey : Text) (userId : Option UserId)
      (occurredAt now : Nat)
  | checkout (userId : UserId) (productId : ProductId) (quantity : JsNumber) (occurredAt now : Nat)
  | createProduct (dto : CreateProductDto)
  | getCard (productId : ProductId)
  /-- The deadline of an entry passes, or Redis evicts it. -/
  | expire (key : Text)
  /-- An operation fails at a statement; the serials do not go back. -/
  | fail (orderIds productIds : Nat)

def step {Digest : Type} [DecidableEq Digest] (number : Text → JsNumber)
    (requestHash : CreateOrderDto → Digest) (store : Store Digest) : Action → Option (Store Digest)
  | .create dto userId occurredAt now => some (create number store dto userId occurredAt now).2
  | .createIdempotent dto clientKey userId occurredAt now =>
      some (createIdempotent number requestHash store dto clientKey userId occurredAt now).2
  | .checkout userId productId quantity occurredAt now =>
      some (checkout store userId productId quantity occurredAt now).2
  | .createProduct dto => some (createProduct store dto)
  | .getCard productId => some (getCard number store productId).2
  | .expire key => some { store with cache := Function.update store.cache key none }
  | .fail orderIds productIds =>
      some { store with
        nextOrderId := store.nextOrderId + orderIds
        catalogue := store.catalogue.skip productIds }

end Marketplace.Shop
