import Marketplace.Basic
import Marketplace.Text

/-!
# The outbox row of an order

`buildOrderPlacedEvent` and `enqueueOrderPlaced`: the row that both ways of placing an order insert
in the transaction of the order.
-/

namespace Marketplace

/-- `orders.id`, a serial. -/
abbrev OrderId := Nat

abbrev ProductId := Int

structure EventItem where
  productId : ProductId
  quantity : Int
  deriving DecidableEq

structure OrderPlacedData where
  orderId : OrderId
  customerEmail : String
  totalCents : Int
  currency : String
  items : List EventItem
  deriving DecidableEq

structure OrderPlacedEvent where
  eventId : Text
  type : String
  occurredAt : Nat
  data : OrderPlacedData
  deriving DecidableEq

def orderPlacedEventId (orderId : OrderId) : Text :=
  ['o', 'r', 'd', 'e', 'r', '-', 'p', 'l', 'a', 'c', 'e', 'd', ':'] ++ decimal orderId

def routingKeyOrderPlaced : String := "order.placed"

def buildOrderPlacedEvent (data : OrderPlacedData) (occurredAt : Nat) : OrderPlacedEvent where
  eventId := orderPlacedEventId data.orderId
  type := routingKeyOrderPlaced
  occurredAt := occurredAt
  data := data

/-- A row of `outbox`; its `id` is the key of the table. -/
structure OutboxRow where
  aggregateType : String
  aggregateId : Text
  type : String
  payload : OrderPlacedEvent
  createdAt : Nat
  publishedAt : Option Nat
  attempts : Nat
  deriving DecidableEq

def aggregateOrder : String := "Order"

/-- The row that `enqueueOrderPlaced` inserts, in a transaction that began at `now`. -/
def enqueueOrderPlaced (data : OrderPlacedData) (occurredAt now : Nat) : OutboxRow where
  aggregateType := aggregateOrder
  aggregateId := decimal data.orderId
  type := (buildOrderPlacedEvent data occurredAt).type
  payload := buildOrderPlacedEvent data occurredAt
  createdAt := now
  publishedAt := none
  attempts := 0

theorem orderPlacedEventId_injective : Function.Injective orderPlacedEventId := by
  intro left right heq
  exact decimal_nat_injective (List.append_cancel_left heq)

end Marketplace
