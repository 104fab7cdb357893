import Marketplace.Lib.GuardedDecrement
import Marketplace.Lib.InsertOnly
import Marketplace.Lib.Transition
import Marketplace.Outbox.Outbox

/-!
# `checkout`, statement by statement

Two guarded decrements and four inserts in one transaction. An UPDATE is two steps: its snapshot,
and the visit of the row it has found there, which waits for the row lock and checks the WHERE
again. A value outside `integer` fails the statement that uses it, so the only step left is `abort`.
-/

namespace Marketplace.Checkout

open ReadCommitted Transition

/-- A `number`, as far as `Number.isInteger` tells. -/
inductive JsNumber where
  | integer (value : Int)
  /-- A fraction, an infinity or NaN, with its text. -/
  | other (text : Text)
  deriving DecidableEq

def JsNumber.text : JsNumber → Text
  | integer value => decimal value
  | other text => text

/-- The arguments that get past the check of `quantity`. -/
structure Purchase where
  userId : UserId
  productId : ProductId
  quantity : Int
  positive : 0 < quantity
  deriving DecidableEq

/-- The columns of `products` and `users` that the UPDATEs read or write. -/
structure Product where
  priceCents : Int
  stock : Int
  deriving DecidableEq

structure User where
  email : String
  balanceCents : Int
  deriving DecidableEq

def stock : Counter Product where
  level := Product.stock
  take quantity product := { product with stock := product.stock - quantity }
  level_take _ _ := rfl

def balance : Counter User where
  level := User.balanceCents
  take amount user := { user with balanceCents := user.balanceCents - amount }
  level_take _ _ := rfl

/-- What is in the tables before the first call. -/
structure Shop where
  products : Table Call ProductId Product
  users : Table Call UserId User
  quietProducts : products.Quiet
  quietUsers : users.Quiet
  stock_nonneg : ∀ productId product, products.committed productId = some product →
    0 ≤ product.stock
  balance_nonneg : ∀ userId user, users.committed userId = some user → 0 ≤ user.balanceCents

def Shop.ofRows (products : List (ProductId × Product)) (users : List (UserId × User))
    (hstock : ∀ entry ∈ products, 0 ≤ entry.2.stock)
    (hbalance : ∀ entry ∈ users, 0 ≤ entry.2.balanceCents) : Shop where
  products := Table.ofRows products
  users := Table.ofRows users
  quietProducts := Table.quiet_ofRows products
  quietUsers := Table.quiet_ofRows users
  stock_nonneg _ _ hproduct := hstock _ (Table.mem_of_committed_ofRows hproduct)
  balance_nonneg _ _ huser := hbalance _ (Table.mem_of_committed_ofRows huser)

structure Order where
  id : OrderId
  userId : UserId
  customerEmail : String
  status : String
  totalCents : Int
  currency : String
  deriving DecidableEq

structure OrderItem where
  orderId : OrderId
  productId : ProductId
  quantity : Int
  priceAtPurchaseCents : Int
  deriving DecidableEq

structure PostProcessingJob where
  orderId : OrderId
  status : String
  worker : Option String
  processed : Nat
  deriving DecidableEq

inductive CheckoutError where
  | quantityNotPositive (quantity : JsNumber)
  | insufficientStock (productId : ProductId)
  | insufficientFunds (userId : UserId)
  | statementFailed
  deriving DecidableEq

/-- The messages of the errors that the function itself throws. -/
def CheckoutError.message : CheckoutError → Option String
  | quantityNotPositive quantity =>
      some ("quantity must be a positive integer, got " ++ String.ofList quantity.text)
  | insufficientStock productId =>
      some ("Insufficient stock for product " ++ String.ofList (decimal productId))
  | insufficientFunds userId =>
      some ("Insufficient balance for user " ++ String.ofList (decimal userId))
  | statementFailed => none

/-- A purchase once the stock is taken: the price comes from the RETURNING of the first UPDATE. -/
structure Sale where
  purchase : Purchase
  priceCents : Int
  deriving DecidableEq

def Sale.totalCents (sale : Sale) : Int := sale.priceCents * sale.purchase.quantity

inductive Phase where
  | idle
  /-- `BEGIN` is done. -/
  | began (purchase : Purchase)
  /-- The UPDATE of `products` has found its row and waits for it. -/
  | takingStock (purchase : Purchase)
  | charging (sale : Sale)
  /-- The UPDATE of `users` has found its row and waits for it. -/
  | takingBalance (sale : Sale)
  | saving (sale : Sale) (customerEmail : String)
  | savingItem (sale : Sale) (order : Order)
  | savingJob (sale : Sale) (order : Order)
  | enqueuing (sale : Sale) (order : Order)
  | committing (sale : Sale) (order : Order)
  /-- The answer is `order.id`. -/
  | returned (sale : Sale) (order : Order)
  | threw (error : CheckoutError)
  deriving DecidableEq

def Phase.isOpen : Phase → Bool
  | idle | returned _ _ | threw _ => false
  | _ => true

structure State where
  products : Table Call ProductId Product
  users : Table Call UserId User
  orders : Inserts Call Order
  orderItems : Inserts Call OrderItem
  postProcessingJobs : Inserts Call PostProcessingJob
  outbox : Inserts Call OutboxRow
  calls : Call → Phase
  nextOrderId : OrderId

inductive Action where
  | checkout (call : Call) (userId : UserId) (productId : ProductId) (quantity : JsNumber)
  | scanProducts (call : Call)
  | takeStock (call : Call)
  | scanUsers (call : Call)
  | takeBalance (call : Call)
  | saveOrder (call : Call)
  | saveItem (call : Call)
  | saveJob (call : Call)
  | enqueue (call : Call) (occurredAt now : Nat)
  | commit (call : Call)
  | abort (call : Call)
  deriving DecidableEq

def checkoutCurrency : String := "UAH"

section Statements

variable (state : State) (call : Call)

def State.init (shop : Shop) : State where
  products := shop.products
  users := shop.users
  orders := []
  orderItems := []
  postProcessingJobs := []
  outbox := []
  calls := fun _ => .idle
  nextOrderId := 1

def State.goto (phase : Phase) : State :=
  { state with calls := Function.update state.calls call phase }

def State.isOpen : Bool := (state.calls call).isOpen

/-- The transaction is rolled back and the call throws. -/
def State.rollback (error : CheckoutError) : State where
  products := state.products.rollback call
  users := state.users.rollback call
  orders := state.orders.rollback call
  orderItems := state.orderItems.rollback call
  postProcessingJobs := state.postProcessingJobs.rollback call
  outbox := state.outbox.rollback call
  calls := Function.update state.calls call (.threw error)
  nextOrderId := state.nextOrderId

def checkout (userId : UserId) (productId : ProductId) (quantity : JsNumber) : Option State :=
  match state.calls call, quantity with
  | .idle, .integer value =>
      if positive : 0 < value then
        some (state.goto call (.began ⟨userId, productId, value, positive⟩))
      else some (state.goto call (.threw (.quantityNotPositive quantity)))
  | .idle, .other _ => some (state.goto call (.threw (.quantityNotPositive quantity)))
  | _, _ => none

/-- The snapshot of `UPDATE products … WHERE id = :productId AND stock >= :qty`. -/
def scanProducts : Option State :=
  match state.calls call with
  | .began purchase =>
      if fitsInt4 purchase.quantity then
        if purchase.productId ∈ state.products.scan call fun productId product =>
            productId = purchase.productId && purchase.quantity ≤ product.stock then
          some (state.goto call (.takingStock purchase))
        else some (state.rollback call (.insufficientStock purchase.productId))
      else none
  | _ => none

def takeStock : Option State :=
  match state.calls call with
  | .takingStock purchase =>
      match state.products.visit call purchase.productId
          (fun product => purchase.quantity ≤ product.stock) (stock.take purchase.quantity) with
      | some (products, true) =>
          -- RETURNING "priceCents"
          match products.view call purchase.productId with
          | some product =>
              some { (state.goto call (.charging ⟨purchase, product.priceCents⟩)) with
                products := products }
          | none => none
      | some (_, false) => some (state.rollback call (.insufficientStock purchase.productId))
      | none => none
  | _ => none

/-- The snapshot of `UPDATE users … WHERE id = :userId AND balanceCents >= :amount`. -/
def scanUsers : Option State :=
  match state.calls call with
  | .charging sale =>
      if fitsInt4 sale.totalCents then
        if sale.purchase.userId ∈ state.users.scan call fun userId user =>
            userId = sale.purchase.userId && sale.totalCents ≤ user.balanceCents then
          some (state.goto call (.takingBalance sale))
        else some (state.rollback call (.insufficientFunds sale.purchase.userId))
      else none
  | _ => none

def takeBalance : Option State :=
  match state.calls call with
  | .takingBalance sale =>
      match state.users.visit call sale.purchase.userId
          (fun user => sale.totalCents ≤ user.balanceCents) (balance.take sale.totalCents) with
      | some (users, true) =>
          -- RETURNING "email"
          match users.view call sale.purchase.userId with
          | some user =>
              if fitsInt4 user.balanceCents then
                some { (state.goto call (.saving sale user.email)) with users := users }
              else none
          | none => none
      | some (_, false) => some (state.rollback call (.insufficientFunds sale.purchase.userId))
      | none => none
  | _ => none

def Sale.order (sale : Sale) (id : OrderId) (customerEmail : String) : Order where
  id := id
  userId := sale.purchase.userId
  customerEmail := customerEmail
  status := "paid"
  totalCents := sale.totalCents
  currency := checkoutCurrency

def Sale.item (sale : Sale) (order : Order) : OrderItem where
  orderId := order.id
  productId := sale.purchase.productId
  quantity := sale.purchase.quantity
  priceAtPurchaseCents := sale.priceCents

def newJob (order : Order) : PostProcessingJob where
  orderId := order.id
  status := "new"
  worker := none
  processed := 0

def Sale.eventData (sale : Sale) (order : Order) : OrderPlacedData where
  orderId := order.id
  customerEmail := order.customerEmail
  totalCents := sale.totalCents
  currency := checkoutCurrency
  items := [⟨sale.purchase.productId, sale.purchase.quantity⟩]

def saveOrder : Option State :=
  match state.calls call with
  | .saving sale customerEmail =>
      let order := sale.order state.nextOrderId customerEmail
      some { (state.goto call (.savingItem sale order)) with
        orders := state.orders.insert call order
        nextOrderId := state.nextOrderId + 1 }
  | _ => none

def saveItem : Option State :=
  match state.calls call with
  | .savingItem sale order =>
      some { (state.goto call (.savingJob sale order)) with
        orderItems := state.orderItems.insert call (sale.item order) }
  | _ => none

def saveJob : Option State :=
  match state.calls call with
  | .savingJob sale order =>
      some { (state.goto call (.enqueuing sale order)) with
        postProcessingJobs := state.postProcessingJobs.insert call (newJob order) }
  | _ => none

def enqueue (occurredAt now : Nat) : Option State :=
  match state.calls call with
  | .enqueuing sale order =>
      some { (state.goto call (.committing sale order)) with
        outbox :=
          state.outbox.insert call (enqueueOrderPlaced (sale.eventData order) occurredAt now) }
  | _ => none

def commit : Option State :=
  match state.calls call with
  | .committing sale order =>
      some { (state.goto call (.returned sale order)) with
        products := state.products.commit call
        users := state.users.commit call }
  | _ => none

/-- A statement of the transaction fails. -/
def abort : Option State :=
  if (state.calls call).isOpen then some (state.rollback call .statementFailed) else none

end Statements

def step (state : State) : Action → Option State
  | .checkout call userId productId quantity => checkout state call userId productId quantity
  | .scanProducts call => scanProducts state call
  | .takeStock call => takeStock state call
  | .scanUsers call => scanUsers state call
  | .takeBalance call => takeBalance state call
  | .saveOrder call => saveOrder state call
  | .saveItem call => saveItem state call
  | .saveJob call => saveJob state call
  | .enqueue call occurredAt now => enqueue state call occurredAt now
  | .commit call => commit state call
  | .abort call => abort state call

/-! ### What a step can do -/

inductive Runs (before : State) (action : Action) : Call → Phase → State → Prop
  | began (call : Call) (purchase : Purchase) :
      Runs before action call .idle (before.goto call (.began purchase))
  | refused (call : Call) (error : CheckoutError) :
      Runs before action call .idle (before.goto call (.threw error))
  | foundProduct (call : Call) (purchase : Purchase) :
      Runs before action call (.began purchase) (before.goto call (.takingStock purchase))
  | tookStock (call : Call) (purchase : Purchase) (priceCents : Int)
      (products : Table Call ProductId Product)
      (hvisit : before.products.visit call purchase.productId
        (fun product => purchase.quantity ≤ product.stock) (stock.take purchase.quantity) =
          some (products, true)) :
      Runs before action call (.takingStock purchase)
        { (before.goto call (.charging ⟨purchase, priceCents⟩)) with products := products }
  | foundUser (call : Call) (sale : Sale) :
      Runs before action call (.charging sale) (before.goto call (.takingBalance sale))
  | tookBalance (call : Call) (sale : Sale) (customerEmail : String)
      (users : Table Call UserId User)
      (hvisit : before.users.visit call sale.purchase.userId
        (fun user => sale.totalCents ≤ user.balanceCents) (balance.take sale.totalCents) =
          some (users, true)) :
      Runs before action call (.takingBalance sale)
        { (before.goto call (.saving sale customerEmail)) with users := users }
  | savedOrder (call : Call) (sale : Sale) (customerEmail : String) :
      Runs before action call (.saving sale customerEmail)
        { (before.goto call
            (.savingItem sale (sale.order before.nextOrderId customerEmail))) with
          orders := before.orders.insert call (sale.order before.nextOrderId customerEmail)
          nextOrderId := before.nextOrderId + 1 }
  | savedItem (call : Call) (sale : Sale) (order : Order) :
      Runs before action call (.savingItem sale order)
        { (before.goto call (.savingJob sale order)) with
          orderItems := before.orderItems.insert call (sale.item order) }
  | savedJob (call : Call) (sale : Sale) (order : Order) :
      Runs before action call (.savingJob sale order)
        { (before.goto call (.enqueuing sale order)) with
          postProcessingJobs := before.postProcessingJobs.insert call (newJob order) }
  | enqueued (call : Call) (sale : Sale) (order : Order) (occurredAt now : Nat) :
      Runs before action call (.enqueuing sale order)
        { (before.goto call (.committing sale order)) with
          outbox :=
            before.outbox.insert call (enqueueOrderPlaced (sale.eventData order) occurredAt now) }
  | committed (call : Call) (sale : Sale) (order : Order) (haction : action = .commit call) :
      Runs before action call (.committing sale order)
        { (before.goto call (.returned sale order)) with
          products := before.products.commit call
          users := before.users.commit call }
  | aborted (call : Call) (phase : Phase) (error : CheckoutError) (hopen : phase.isOpen = true) :
      Runs before action call phase (before.rollback call error)

theorem step_runs {state after : State} {action : Action} (hstep : step state action = some after) :
    ∃ call phase, state.calls call = phase ∧ Runs state action call phase after := by
  cases action with
  | checkout call userId productId quantity =>
      simp only [step, checkout] at hstep
      split at hstep
      · rename_i value hphase
        split at hstep <;> cases hstep
        · exact ⟨call, _, hphase, .began call _⟩
        · exact ⟨call, _, hphase, .refused call _⟩
      · rename_i text hphase
        cases hstep
        exact ⟨call, _, hphase, .refused call _⟩
      · cases hstep
  | scanProducts call =>
      simp only [step, scanProducts] at hstep
      split at hstep
      case h_2 => cases hstep
      rename_i purchase hphase
      split at hstep
      case isFalse => cases hstep
      split at hstep <;> cases hstep
      · exact ⟨call, _, hphase, .foundProduct call purchase⟩
      · exact ⟨call, _, hphase, .aborted call _ _ rfl⟩
  | takeStock call =>
      simp only [step, takeStock] at hstep
      split at hstep
      case h_2 => cases hstep
      rename_i purchase hphase
      split at hstep
      · rename_i products hvisit
        split at hstep <;> cases hstep
        exact ⟨call, _, hphase, .tookStock call purchase _ products hvisit⟩
      · cases hstep
        exact ⟨call, _, hphase, .aborted call _ _ rfl⟩
      · cases hstep
  | scanUsers call =>
      simp only [step, scanUsers] at hstep
      split at hstep
      case h_2 => cases hstep
      rename_i sale hphase
      split at hstep
      case isFalse => cases hstep
      split at hstep <;> cases hstep
      · exact ⟨call, _, hphase, .foundUser call sale⟩
      · exact ⟨call, _, hphase, .aborted call _ _ rfl⟩
  | takeBalance call =>
      simp only [step, takeBalance] at hstep
      split at hstep
      case h_2 => cases hstep
      rename_i sale hphase
      split at hstep
      · rename_i users hvisit
        split at hstep
        case h_2 => cases hstep
        split at hstep <;> cases hstep
        exact ⟨call, _, hphase, .tookBalance call sale _ users hvisit⟩
      · cases hstep
        exact ⟨call, _, hphase, .aborted call _ _ rfl⟩
      · cases hstep
  | saveOrder call =>
      simp only [step, saveOrder] at hstep
      split at hstep <;> cases hstep
      rename_i sale customerEmail hphase
      exact ⟨call, _, hphase, .savedOrder call sale customerEmail⟩
  | saveItem call =>
      simp only [step, saveItem] at hstep
      split at hstep <;> cases hstep
      rename_i sale order hphase
      exact ⟨call, _, hphase, .savedItem call sale order⟩
  | saveJob call =>
      simp only [step, saveJob] at hstep
      split at hstep <;> cases hstep
      rename_i sale order hphase
      exact ⟨call, _, hphase, .savedJob call sale order⟩
  | enqueue call occurredAt now =>
      simp only [step, enqueue] at hstep
      split at hstep <;> cases hstep
      rename_i sale order hphase
      exact ⟨call, _, hphase, .enqueued call sale order occurredAt now⟩
  | commit call =>
      simp only [step, commit] at hstep
      split at hstep <;> cases hstep
      rename_i sale order hphase
      exact ⟨call, _, hphase, .committed call sale order rfl⟩
  | abort call =>
      simp only [step, abort] at hstep
      split at hstep <;> cases hstep
      rename_i hopen
      exact ⟨call, _, rfl, .aborted call _ _ hopen⟩

end Marketplace.Checkout
