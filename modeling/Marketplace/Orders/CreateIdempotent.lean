import Marketplace.Lib.InsertOnly
import Marketplace.Lib.ReadCommitted
import Marketplace.Lib.Transition
import Marketplace.Outbox.Outbox

/-!
# `OrdersService.createIdempotent`, statement by statement

The transaction that claims an idempotency key and places an order under it, with the replay of a
key that is taken. An INSERT on a key that an open transaction has inserted waits for that
transaction. The product rows are whatever `findOneBy` answers at the time; `requestHash` (SHA-256
of the JSON text of the body) is a parameter.
-/

namespace Marketplace.Orders

open ReadCommitted Transition

structure OrderItemDto where
  productId : Text
  quantity : Int
  deriving DecidableEq

structure CreateOrderDto where
  customerEmail : String
  items : List OrderItemDto
  deriving DecidableEq

structure Request where
  dto : CreateOrderDto
  clientKey : Text
  userId : Option UserId
  deriving DecidableEq

def Request.idempotencyKey (request : Request) : Text :=
  match request.userId with
  | none => request.clientKey
  | some userId => decimal userId ++ ':' :: request.clientKey

/-- The columns of `products` that an order reads. -/
structure Product where
  id : ProductId
  priceCents : Int
  currency : String
  deriving DecidableEq

structure OrderItem where
  productId : ProductId
  quantity : Int
  priceAtPurchaseCents : Int
  deriving DecidableEq

/-- A row of `orders` with its `order_items`, which the same `save` inserts. -/
structure Order where
  id : OrderId
  userId : Option UserId
  customerEmail : String
  status : String
  totalCents : Int
  currency : String
  items : List OrderItem
  deriving DecidableEq

/-- What `toResponse` makes of an order. -/
structure OrderResponse where
  id : Text
  items : List (Text × Int)
  totalCents : Int
  currency : String
  status : String
  deriving DecidableEq

def toResponse (order : Order) : OrderResponse where
  id := decimal order.id
  items := order.items.map fun item => (decimal item.productId, item.quantity)
  totalCents := order.totalCents
  currency := order.currency
  status := order.status

/-- A row of `idempotency_keys`, its key left out. -/
structure KeyRow (Digest : Type) where
  requestHash : Digest
  orderId : Option OrderId
  deriving DecidableEq

inductive Failure where
  | productNotFound (productId : Text)
  | keyReused
  | orderNotFound (orderId : Text)
  /-- A statement failed, or the code threw a plain error. -/
  | internal
  deriving DecidableEq

def Failure.toHttp : Failure → HttpError
  | .productNotFound productId => ⟨400, "Product " ++ String.ofList productId ++ " not found"⟩
  | .keyReused => ⟨422, "Idempotency-Key already used with a different request body"⟩
  | .orderNotFound orderId => ⟨404, "Order " ++ String.ofList orderId ++ " not found"⟩
  | .internal => ⟨500, "Internal server error"⟩

inductive Phase (Digest : Type) where
  | idle
  /-- `BEGIN` is done, the INSERT of the key is next. -/
  | claiming (request : Request)
  /-- The key is taken: reading its row is next. -/
  | conflicted (request : Request)
  | replaying (request : Request) (existing : Option (KeyRow Digest))
  /-- The key is claimed; `rest` are the items whose product is still to be read. -/
  | pricing (request : Request) (rest : List OrderItemDto) (items : List OrderItem)
      (totalCents : Int) (currency : String)
  /-- The order is inserted: the outbox row is next. -/
  | enqueuing (request : Request) (saved : Order)
  /-- Linking the key to the order is next. -/
  | linking (request : Request) (saved : Order)
  | committing (request : Request) (saved : Order)
  /-- After `COMMIT`: the cards of the products are invalidated, which never throws. -/
  | created (request : Request) (saved : Order)
  /-- After `COMMIT` of a transaction that found the key taken. -/
  | existing (request : Request) (existing : Option (KeyRow Digest))
  | returned (request : Request) (order : OrderResponse) (replayed : Bool)
  | threw (request : Request) (failure : Failure)
  deriving DecidableEq

namespace Phase

variable {Digest : Type}

def isOpen : Phase Digest → Bool
  | claiming _ | conflicted _ | replaying _ _ | pricing _ _ _ _ _ | enqueuing _ _ | linking _ _
  | committing _ _ => true
  | idle | created _ _ | existing _ _ | returned _ _ _ | threw _ _ => false

def request : Phase Digest → Option Request
  | idle => none
  | claiming request | conflicted request | replaying request _ | pricing request _ _ _ _
  | enqueuing request _ | linking request _ | committing request _ | created request _
  | existing request _ | returned request _ _ | threw request _ => some request

/-- The call has returned or thrown. -/
def isOver : Phase Digest → Bool
  | returned _ _ _ | threw _ _ => true
  | _ => false

end Phase

structure State (Digest : Type) where
  keys : Table Call Text (KeyRow Digest)
  orders : Inserts Call Order
  outbox : Inserts Call OutboxRow
  calls : Call → Phase Digest
  nextOrderId : OrderId

inductive Action where
  | createIdempotent (call : Call) (request : Request)
  | claim (call : Call)
  | selectKey (call : Call)
  | findProduct (call : Call) (product : Option Product)
  | save (call : Call)
  | enqueue (call : Call) (occurredAt now : Nat)
  | link (call : Call)
  | commit (call : Call)
  | respond (call : Call)
  | abort (call : Call)

section Statements

variable {Digest : Type} [DecidableEq Digest] (requestHash : CreateOrderDto → Digest)
  (state : State Digest) (call : Call)

def State.init : State Digest where
  keys := Table.empty
  orders := []
  outbox := []
  calls := fun _ => .idle
  nextOrderId := 1

def State.goto (phase : Phase Digest) : State Digest :=
  { state with calls := Function.update state.calls call phase }

/-- Everything the transaction wrote is undone. -/
def State.rollback (phase : Phase Digest) : State Digest :=
  { (state.goto call phase) with
    keys := state.keys.rollback call
    orders := state.orders.rollback call
    outbox := state.outbox.rollback call }

def State.isOpen : Bool := (state.calls call).isOpen

def createIdempotent (request : Request) : Option (State Digest) :=
  match state.calls call with
  | .idle => some (state.goto call (.claiming request))
  | _ => none

/-- `INSERT INTO idempotency_keys … ON CONFLICT DO NOTHING RETURNING …`. -/
def claim : Option (State Digest) :=
  match state.calls call with
  | .claiming request =>
      match state.keys.insertOutcome call request.idempotencyKey with
      | .inserted =>
          some { (state.goto call (.pricing request request.dto.items [] 0 "UAH")) with
            keys := state.keys.put call request.idempotencyKey
              (some ⟨requestHash request.dto, none⟩) }
      | .conflict => some (state.goto call (.conflicted request))
      | .wait => none
  | _ => none

def selectKey : Option (State Digest) :=
  match state.calls call with
  | .conflicted request =>
      some (state.goto call (.replaying request (state.keys.view call request.idempotencyKey)))
  | _ => none

/-- One turn of the loop over the items. `product` is the answer of the query, `none` as well when
`Number(item.productId)` is NaN and no query is made. -/
def findProduct (product : Option Product) : Option (State Digest) :=
  match state.calls call with
  | .pricing request (item :: rest) items totalCents _ =>
      match product with
      | some product =>
          some (state.goto call (.pricing request rest
            (items ++ [⟨product.id, item.quantity, product.priceCents⟩])
            (totalCents + product.priceCents * item.quantity) product.currency))
      | none => some (state.rollback call (.threw request (.productNotFound item.productId)))
  | _ => none

/-- `manager.save` of the order and its items. A total outside `integer` fails the INSERT. -/
def save : Option (State Digest) :=
  match state.calls call with
  | .pricing request [] items totalCents currency =>
      if fitsInt4 totalCents then
        let saved : Order :=
          { id := state.nextOrderId
            userId := request.userId
            customerEmail := request.dto.customerEmail
            status := "created"
            totalCents := totalCents
            currency := currency
            items := items }
        some { (state.goto call (.enqueuing request saved)) with
          orders := state.orders.insert call saved
          nextOrderId := state.nextOrderId + 1 }
      else none
  | _ => none

def eventData (saved : Order) : OrderPlacedData where
  orderId := saved.id
  customerEmail := saved.customerEmail
  totalCents := saved.totalCents
  currency := saved.currency
  items := saved.items.map fun item => ⟨item.productId, item.quantity⟩

def enqueue (occurredAt now : Nat) : Option (State Digest) :=
  match state.calls call with
  | .enqueuing request saved =>
      some { (state.goto call (.linking request saved)) with
        outbox := state.outbox.insert call (enqueueOrderPlaced (eventData saved) occurredAt now) }
  | _ => none

/-- `UPDATE idempotency_keys SET order_id = $1 WHERE idempotency_key = $2`. -/
def link : Option (State Digest) :=
  match state.calls call with
  | .linking request saved =>
      match state.keys.visit call request.idempotencyKey (fun _ => true)
          ({ · with orderId := some saved.id }) with
      | some (keys, _) => some { (state.goto call (.committing request saved)) with keys := keys }
      | none => none
  | _ => none

def commit : Option (State Digest) :=
  match state.calls call with
  | .committing request saved =>
      some { (state.goto call (.created request saved)) with keys := state.keys.commit call }
  | .replaying request existing =>
      some { (state.goto call (.existing request existing)) with keys := state.keys.commit call }
  | _ => none

/-- `findOne(String(orderId))` on the committed orders. -/
def findOne (orderId : OrderId) : Option Order :=
  ((state.orders.committed state.isOpen).find? fun entry => entry.2.id = orderId).map Prod.snd

/-- What the call does after its transaction. -/
def respond : Option (State Digest) :=
  match state.calls call with
  | .created request saved => some (state.goto call (.returned request (toResponse saved) false))
  | .existing request none => some (state.goto call (.threw request .internal))
  | .existing request (some row) =>
      if row.requestHash ≠ requestHash request.dto then
        some (state.goto call (.threw request .keyReused))
      else
        match row.orderId with
        | none => some (state.goto call (.threw request (.orderNotFound ['n', 'u', 'l', 'l'])))
        | some orderId =>
            match findOne state orderId with
            | some order => some (state.goto call (.returned request (toResponse order) true))
            | none => some (state.goto call (.threw request (.orderNotFound (decimal orderId))))
  | _ => none

/-- A statement fails: one of the transaction, which is rolled back, or the query of `findOne`,
which runs only if the hashes agree. -/
def abort : Option (State Digest) :=
  match state.calls call with
  | .existing request (some row) =>
      if row.requestHash = requestHash request.dto then
        some (state.goto call (.threw request .internal))
      else none
  | phase =>
      match phase.isOpen, phase.request with
      | true, some request => some (state.rollback call (.threw request .internal))
      | _, _ => none

end Statements

def step {Digest : Type} [DecidableEq Digest] (requestHash : CreateOrderDto → Digest)
    (state : State Digest) : Action → Option (State Digest)
  | .createIdempotent call request => createIdempotent state call request
  | .claim call => claim requestHash state call
  | .selectKey call => selectKey state call
  | .findProduct call product => findProduct state call product
  | .save call => save state call
  | .enqueue call occurredAt now => enqueue state call occurredAt now
  | .link call => link state call
  | .commit call => commit state call
  | .respond call => respond requestHash state call
  | .abort call => abort requestHash state call

end Marketplace.Orders
