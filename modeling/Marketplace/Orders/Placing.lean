import Marketplace.Checkout.Checkout
import Marketplace.Orders.InsertOrder

/-!
# Every way to place an order

`create`, `createIdempotent` and `checkout` on the tables they share: `orders`, `order_items`,
`outbox` and the sequence of the order ids. What the statements on other tables answer (whether the
key is claimed, the price of the product, the email of the user) comes with the action. A value that
a column cannot hold fails its statement, so the only step left is `abort`.
-/

namespace Marketplace.Placing

open Checkout (JsNumber OrderItem Purchase Sale checkoutCurrency)
open Orders (Cart CreateOrderDto OrderItemDto Product)
open ReadCommitted

/-- A row of `orders`. -/
structure OrderRow where
  id : OrderId
  userId : Option UserId
  customerEmail : String
  status : String
  totalCents : Int
  currency : String
  deriving DecidableEq

/-- `priceCents * quantity`. -/
def amountOf (sale : Sale) : Int := Double.mul sale.priceCents sale.purchase.quantity

/-- What the rows of an order are made of: the variables of `insertOrderWithEvent` after its loop,
or those of `checkout` after its two UPDATEs. -/
inductive Source where
  | requested (dto : CreateOrderDto) (userId : Option UserId) (cart : Cart)
  | sold (sale : Sale) (customerEmail : String)
  deriving DecidableEq

namespace Source

def orderRow (id : OrderId) : Source → OrderRow
  | requested dto userId cart =>
      { id := id
        userId := userId
        customerEmail := dto.customerEmail
        status := "created"
        totalCents := cart.totalCents
        currency := cart.currency }
  | sold sale customerEmail =>
      { id := id
        userId := some sale.purchase.userId
        customerEmail := customerEmail
        status := "paid"
        totalCents := amountOf sale
        currency := checkoutCurrency }

def itemRows (id : OrderId) : Source → List OrderItem
  | requested _ _ cart =>
      cart.items.map fun item => ⟨id, item.productId, item.quantity, item.priceAtPurchaseCents⟩
  | sold sale _ => [⟨id, sale.purchase.productId, sale.purchase.quantity, sale.priceCents⟩]

/-- `insertOrderWithEvent` reads the saved order, `checkout` its own variables. -/
def eventData (id : OrderId) : Source → OrderPlacedData
  | requested dto userId cart =>
      let saved := (requested dto userId cart).orderRow id
      { orderId := saved.id
        customerEmail := saved.customerEmail
        totalCents := saved.totalCents
        currency := saved.currency
        items := cart.items.map fun item => ⟨item.productId, item.quantity⟩ }
  | sold sale customerEmail =>
      { orderId := id
        customerEmail := customerEmail
        totalCents := amountOf sale
        currency := checkoutCurrency
        items := [⟨sale.purchase.productId, sale.purchase.quantity⟩] }

end Source

inductive Phase where
  | idle
  /-- The INSERT of the idempotency key is next. -/
  | claiming (dto : CreateOrderDto) (userId : Option UserId)
  | pricing (idempotent : Bool) (dto : CreateOrderDto) (userId : Option UserId)
      (rest : List OrderItemDto) (cart : Cart)
  | takingStock (purchase : Purchase)
  | takingBalance (sale : Sale)
  | saving (sale : Sale) (customerEmail : String)
  | savingItem (sale : Sale) (customerEmail : String) (id : OrderId)
  | savingJob (sale : Sale) (customerEmail : String) (id : OrderId)
  | enqueuing (idempotent : Bool) (source : Source) (id : OrderId)
  /-- The UPDATE of the idempotency key is next. -/
  | linking (source : Source) (id : OrderId)
  | committing (source : Source) (id : OrderId)
  | placed (source : Source) (id : OrderId)
  /-- The key was taken, and the transaction has committed without a write. -/
  | replayed
  | threw
  deriving DecidableEq

def Phase.isOpen : Phase → Bool
  | idle | placed _ _ | replayed | threw => false
  | _ => true

structure State where
  orders : Inserts Call OrderRow
  orderItems : Inserts Call OrderItem
  outbox : Inserts Call OutboxRow
  calls : Call → Phase
  nextOrderId : OrderId

inductive Action where
  | create (call : Call) (dto : CreateOrderDto) (userId : Option UserId)
  | createIdempotent (call : Call) (dto : CreateOrderDto) (userId : Option UserId)
  | claim (call : Call) (claimed : Bool)
  | findProduct (call : Call) (product : Option Product)
  | save (call : Call)
  | checkout (call : Call) (purchase : Purchase)
  | takeStock (call : Call) (priceCents : Int)
  | takeBalance (call : Call) (customerEmail : String)
  | saveOrder (call : Call)
  | saveItem (call : Call)
  | saveJob (call : Call)
  | enqueue (call : Call) (occurredAt now : Nat)
  | link (call : Call)
  | commit (call : Call)
  | abort (call : Call)

def Action.caller : Action → Call
  | create call _ _ | createIdempotent call _ _ | claim call _ | findProduct call _ | save call
  | checkout call _ | takeStock call _ | takeBalance call _ | saveOrder call | saveItem call
  | saveJob call | enqueue call _ _ | link call | commit call | abort call => call

section Statements

variable (number : Text → JsNumber) (state : State) (call : Call)

def State.init : State where
  orders := []
  orderItems := []
  outbox := []
  calls := fun _ => .idle
  nextOrderId := 1

def State.goto (phase : Phase) : State :=
  { state with calls := Function.update state.calls call phase }

def State.isOpen : Bool := (state.calls call).isOpen

/-- The transaction is rolled back and the call throws. A serial does not go back. -/
def State.rollback : State where
  orders := state.orders.rollback call
  orderItems := state.orderItems.rollback call
  outbox := state.outbox.rollback call
  calls := Function.update state.calls call .threw
  nextOrderId := state.nextOrderId

def create (dto : CreateOrderDto) (userId : Option UserId) : Option State :=
  match state.calls call with
  | .idle => some (state.goto call (.pricing false dto userId dto.items .empty))
  | _ => none

def createIdempotent (dto : CreateOrderDto) (userId : Option UserId) : Option State :=
  match state.calls call with
  | .idle => some (state.goto call (.claiming dto userId))
  | _ => none

def claim (claimed : Bool) : Option State :=
  match state.calls call with
  | .claiming dto userId =>
      if claimed then some (state.goto call (.pricing true dto userId dto.items .empty))
      else some (state.goto call .replayed)
  | _ => none

/-- `findOneBy({ id: Number(item.productId) })`, which is not asked for NaN. -/
def findProduct (product : Option Product) : Option State :=
  match state.calls call with
  | .pricing idempotent dto userId (item :: rest) cart =>
      if (number item.productId).isNaN then some (state.rollback call)
      else
        match (number item.productId).toInt4, product with
        | some _, none => some (state.rollback call)
        | some id, some product =>
            if product.id = id then
              some (state.goto call (.pricing idempotent dto userId rest (cart.add item product)))
            else none
        | none, _ => none
  | _ => none

/-- `manager.save` of the order with its items. -/
def save : Option State :=
  match state.calls call with
  | .pricing idempotent dto userId [] cart =>
      if cart.fits then
        let source := Source.requested dto userId cart
        some { (state.goto call (.enqueuing idempotent source state.nextOrderId)) with
          orders := state.orders.insert call (source.orderRow state.nextOrderId)
          orderItems := state.orderItems.insertAll call (source.itemRows state.nextOrderId)
          nextOrderId := state.nextOrderId + 1 }
      else none
  | _ => none

def checkout (purchase : Purchase) : Option State :=
  match state.calls call with
  | .idle => some (state.goto call (.takingStock purchase))
  | _ => none

/-- The UPDATE of `products`, which returns the price. -/
def takeStock (priceCents : Int) : Option State :=
  match state.calls call with
  | .takingStock purchase =>
      if fitsInt4 purchase.quantity && fitsInt4 priceCents then
        some (state.goto call (.takingBalance ⟨purchase, priceCents⟩))
      else none
  | _ => none

/-- The UPDATE of `users`, which returns the email. -/
def takeBalance (customerEmail : String) : Option State :=
  match state.calls call with
  | .takingBalance sale =>
      if fitsInt4 (amountOf sale) then some (state.goto call (.saving sale customerEmail)) else none
  | _ => none

def saveOrder : Option State :=
  match state.calls call with
  | .saving sale customerEmail =>
      some { (state.goto call (.savingItem sale customerEmail state.nextOrderId)) with
        orders := state.orders.insert call
          ((Source.sold sale customerEmail).orderRow state.nextOrderId)
        nextOrderId := state.nextOrderId + 1 }
  | _ => none

def saveItem : Option State :=
  match state.calls call with
  | .savingItem sale customerEmail id =>
      some { (state.goto call (.savingJob sale customerEmail id)) with
        orderItems :=
          state.orderItems.insertAll call ((Source.sold sale customerEmail).itemRows id) }
  | _ => none

def saveJob : Option State :=
  match state.calls call with
  | .savingJob sale customerEmail id =>
      some (state.goto call (.enqueuing false (.sold sale customerEmail) id))
  | _ => none

def enqueue (occurredAt now : Nat) : Option State :=
  match state.calls call with
  | .enqueuing idempotent source id =>
      let next := if idempotent then Phase.linking source id else Phase.committing source id
      some { (state.goto call next) with
        outbox := state.outbox.insert call
          (enqueueOrderPlaced (source.eventData id) occurredAt now) }
  | _ => none

def link : Option State :=
  match state.calls call with
  | .linking source id => some (state.goto call (.committing source id))
  | _ => none

def commit : Option State :=
  match state.calls call with
  | .committing source id => some (state.goto call (.placed source id))
  | _ => none

/-- A statement of the transaction fails. -/
def abort : Option State :=
  if (state.calls call).isOpen then some (state.rollback call) else none

end Statements

def step (number : Text → JsNumber) (state : State) : Action → Option State
  | .create call dto userId => create state call dto userId
  | .createIdempotent call dto userId => createIdempotent state call dto userId
  | .claim call claimed => claim state call claimed
  | .findProduct call product => findProduct number state call product
  | .save call => save state call
  | .checkout call purchase => checkout state call purchase
  | .takeStock call priceCents => takeStock state call priceCents
  | .takeBalance call customerEmail => takeBalance state call customerEmail
  | .saveOrder call => saveOrder state call
  | .saveItem call => saveItem state call
  | .saveJob call => saveJob state call
  | .enqueue call occurredAt now => enqueue state call occurredAt now
  | .link call => link state call
  | .commit call => commit state call
  | .abort call => abort state call

/-- What `CreateOrderDto` and `CreateProductDto` let through: a quantity is at least one, and no
price is negative. -/
def Valid (_ : State) : Action → Prop
  | .create _ dto _ | .createIdempotent _ dto _ => ∀ item ∈ dto.items, 1 ≤ item.quantity
  | .findProduct _ (some product) => 0 ≤ product.priceCents
  | .takeStock _ priceCents => 0 ≤ priceCents
  | _ => True

instance (state : State) (action : Action) : Decidable (Valid state action) := by
  unfold Valid
  split <;> infer_instance

end Marketplace.Placing
