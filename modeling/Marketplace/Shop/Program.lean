import Marketplace.Lib.Atomic
import Marketplace.Shop.ProductCards

/-!
# The three ways to place an order, with failures

`create`, `createIdempotent` and `checkout` statement by statement. Any statement may fail, the
COMMIT may be refused and a command of Redis may fail: a plan of failures comes with the state.
-/

namespace Marketplace.Shop.Program

open Atomic
open Checkout (CheckoutError JsNumber Sale)
open Orders (Cart CreateOrderDto Failure KeyRow OrderItemDto OrderResponse Request)
open Placing (Source amountOf)

/-- The database with `post_processing_jobs`, and the cache. -/
structure Tables (Digest : Type) extends Store Digest where
  jobs : List OrderId

abbrev World (Digest : Type) : Type := Faulty (Tables Digest)

abbrev Prog (Digest Thrown Value : Type) : Type := EStateM Thrown (World Digest) Value

section Statements

variable {Digest Thrown Value : Type}

/-- The rows are those of BEGIN again. A serial does not go back, and Redis is not a part of it. -/
def rollback (before after : World Digest) : World Digest :=
  { after with
    state :=
      { before.state with
        nextOrderId := after.state.nextOrderId
        cache := after.state.cache } }

/-- BEGIN and COMMIT. -/
def bracket (failure : Thrown) : Prog Digest Thrown Unit :=
  statement failure fun tables => .ok ((), tables)

def inTransaction (failure : Thrown) (body : Prog Digest Thrown Value) : Prog Digest Thrown Value :=
  transaction rollback do
    bracket failure
    let value ← body
    bracket failure
    return value

/-! ### The INSERTs that the calls share -/

def insertOrder (failure : Thrown) (source : Source) : Prog Digest Thrown OrderId :=
  statement failure fun tables =>
    let row := source.orderRow tables.nextOrderId
    if fitsInt4 row.totalCents && tables.hasUser row.userId &&
      decide (tables.nextOrderId ≤ 2147483647) then
      .ok (tables.nextOrderId,
        { tables with
          orders := tables.orders ++ [row]
          nextOrderId := tables.nextOrderId + 1 })
    else .error failure

def insertItems (failure : Thrown) (source : Source) (id : OrderId) : Prog Digest Thrown Unit :=
  statement failure fun tables =>
    if (source.itemRows id).all fun item => fitsInt4 item.quantity &&
      fitsInt4 item.priceAtPurchaseCents then
      .ok ((), { tables with orderItems := tables.orderItems ++ source.itemRows id })
    else .error failure

def enqueue (failure : Thrown) (source : Source) (id : OrderId) (occurredAt now : Nat) :
    Prog Digest Thrown Unit :=
  statement failure fun tables =>
    .ok ((), { tables with
      outbox := tables.outbox ++ [enqueueOrderPlaced (source.eventData id) occurredAt now] })

/-! ### `create` and `createIdempotent` -/

variable (number : Text → JsNumber)

/-- One turn of the loop: `findOneBy`, which is not asked for NaN. -/
def priceItem (cart : Cart) (item : OrderItemDto) : Prog Digest Failure Cart :=
  if (number item.productId).isNaN then throw (.productNotFound item.productId)
  else
    statement .internal fun tables =>
      match Shop.priceItem number tables.catalogue cart item with
      | .ok cart => .ok (cart, tables)
      | .error failure => .error failure

def priceItems : Cart → List OrderItemDto → Prog Digest Failure Cart
  | cart, [] => pure cart
  | cart, item :: rest => do
      let next ← priceItem number cart item
      priceItems next rest

def insertOrderWithEvent (dto : CreateOrderDto) (userId : Option UserId) (occurredAt now : Nat) :
    Prog Digest Failure (Source × OrderId) := do
  let cart ← priceItems number .empty dto.items
  let source := Source.requested dto userId cart
  let id ← insertOrder .internal source
  insertItems .internal source id
  enqueue .internal source id occurredAt now
  return (source, id)

/-- `RedisCache.del`: an error is logged and swallowed. -/
def del (key : Text) : Prog Digest Failure Unit :=
  tryCatch
    (statement .internal fun tables =>
      .ok ((), { tables with cache := Function.update tables.cache key none }))
    fun _ => pure ()

def invalidateAll : List ProductId → Prog Digest Failure Unit
  | [] => pure ()
  | id :: rest => do
      del (cardKey id)
      invalidateAll rest

/-- `invalidateCards`; `cards` says whether there is a cache at all. -/
def invalidateCards (cards : Bool) (source : Source) : Prog Digest Failure Unit :=
  if cards then invalidateAll (productIdsOf source).dedup else pure ()

def create (cards : Bool) (dto : CreateOrderDto) (userId : Option UserId) (occurredAt now : Nat) :
    Prog Digest Failure OrderResponse := do
  let (source, id) ← inTransaction .internal (insertOrderWithEvent number dto userId occurredAt now)
  invalidateCards cards source
  return responseOf (source.orderRow id) (source.itemRows id)

/-- `INSERT INTO idempotency_keys … ON CONFLICT DO NOTHING RETURNING …`. -/
def claim (key : Text) (requestHash : Digest) : Prog Digest Failure Bool :=
  statement .internal fun tables =>
    match tables.keys key with
    | some _ => .ok (false, tables)
    | none => .ok (true, { tables with
        keys := Function.update tables.keys key (some ⟨requestHash, none⟩) })

def selectKey (key : Text) : Prog Digest Failure (Option (KeyRow Digest)) :=
  statement .internal fun tables => .ok (tables.keys key, tables)

def link (key : Text) (id : OrderId) : Prog Digest Failure Unit :=
  statement .internal fun tables =>
    .ok ((), { tables with
      keys := Function.update tables.keys key
        ((tables.keys key).map fun row => { row with orderId := some id }) })

/-- What the callback of `createIdempotent` returns. -/
inductive Outcome (Digest : Type) where
  | created (source : Source) (id : OrderId)
  | replay (existing : Option (KeyRow Digest))

def claimAndInsert (key : Text) (requestHash : Digest) (dto : CreateOrderDto)
    (userId : Option UserId) (occurredAt now : Nat) : Prog Digest Failure (Outcome Digest) := do
  if ← claim key requestHash then
    let (source, id) ← insertOrderWithEvent number dto userId occurredAt now
    link key id
    return .created source id
  else
    return .replay (← selectKey key)

def findOne (id : OrderId) : Prog Digest Failure (Option OrderResponse) :=
  statement .internal fun tables => .ok (Shop.findOne tables.toStore id, tables)

/-- The replay, after the COMMIT of a transaction that has written nothing. -/
def replay [DecidableEq Digest] (requestHash : Digest) :
    Option (KeyRow Digest) → Prog Digest Failure (OrderResponse × Bool)
  | none => throw .internal
  | some existing =>
      if existing.requestHash ≠ requestHash then throw .keyReused
      else
        match existing.orderId with
        | none => throw (.orderNotFound ['n', 'u', 'l', 'l'])
        | some id => do
            match ← findOne id with
            | none => throw (.orderNotFound (decimal id))
            | some order => return (order, true)

def createIdempotent [DecidableEq Digest] (requestHash : CreateOrderDto → Digest) (cards : Bool)
    (dto : CreateOrderDto) (clientKey : Text) (userId : Option UserId) (occurredAt now : Nat) :
    Prog Digest Failure (OrderResponse × Bool) := do
  let key := Request.idempotencyKey ⟨dto, clientKey, userId⟩
  let outcome ← inTransaction .internal
    (claimAndInsert number key (requestHash dto) dto userId occurredAt now)
  match outcome with
  | .created source id =>
      invalidateCards cards source
      return (responseOf (source.orderRow id) (source.itemRows id), false)
  | .replay existing => replay (requestHash dto) existing

/-! ### `checkout` -/

/-- `UPDATE products`, and the error when it has changed no row. -/
def takeStock (productId : ProductId) (quantity : Int) : Prog Digest CheckoutError Int :=
  statement .statementFailed fun tables =>
    if fitsInt4 quantity && fitsInt4 productId then
      match tables.catalogue.find productId with
      | none => .error (.insufficientStock productId)
      | some product =>
          if quantity ≤ product.stock then
            .ok (product.priceCents,
              { tables with catalogue := tables.catalogue.takeStock productId quantity })
          else .error (.insufficientStock productId)
    else .error .statementFailed

/-- `UPDATE users`, and the error when it has changed no row. -/
def takeBalance (sale : Sale) : Prog Digest CheckoutError String :=
  statement .statementFailed fun tables =>
    if fitsInt4 (amountOf sale) && fitsInt4 sale.purchase.userId then
      match tables.users sale.purchase.userId with
      | none => .error (.insufficientFunds sale.purchase.userId)
      | some user =>
          if amountOf sale ≤ user.balanceCents then
            let paid := { user with balanceCents := user.balanceCents - amountOf sale }
            if fitsInt4 paid.balanceCents then
              .ok (user.email,
                { tables with
                  users := Function.update tables.users sale.purchase.userId (some paid) })
            else .error .statementFailed
          else .error (.insufficientFunds sale.purchase.userId)
    else .error .statementFailed

def insertJob (id : OrderId) : Prog Digest CheckoutError Unit :=
  statement .statementFailed fun tables => .ok ((), { tables with jobs := tables.jobs ++ [id] })

def sell (userId : UserId) (productId : ProductId) (quantity : Int) (positive : 0 < quantity)
    (occurredAt now : Nat) : Prog Digest CheckoutError OrderId := do
  let priceCents ← takeStock productId quantity
  let sale : Sale := ⟨⟨userId, productId, quantity, positive⟩, priceCents⟩
  let customerEmail ← takeBalance sale
  let source := Source.sold sale customerEmail
  let id ← insertOrder .statementFailed source
  insertItems .statementFailed source id
  insertJob id
  enqueue .statementFailed source id occurredAt now
  return id

def checkout (userId : UserId) (productId : ProductId) (quantity : JsNumber)
    (occurredAt now : Nat) :
    Prog Digest CheckoutError OrderId :=
  match quantity with
  | .other _ => throw (.quantityNotPositive quantity)
  | .integer value =>
      if positive : 0 < value then
        inTransaction .statementFailed (sell userId productId value positive occurredAt now)
      else throw (.quantityNotPositive quantity)

end Statements

end Marketplace.Shop.Program
