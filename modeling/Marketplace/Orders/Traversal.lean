import Marketplace.Common.NextCursor
import Marketplace.Orders.Visibility

/-!
# The lists, page by page

Both `findAll` read by the last id, so a client that feeds back each cursor gets every row that was
there when it began, once and in order, whatever is committed while it reads.
-/

namespace Marketplace.OrdersService

open Checkout (JsNumber)
open Orders (Order toResponse)
open Pagination (LimitFits LimitsRows NullMeansEnd Traverses TraversesOnce afterId decodeCursor
  encodeCursor maxLimit moreThan)
open Products (Product)

/-- What happens to the tables between two calls: rows are added and changed, but no row goes, and
no order gets another owner. -/
structure Grows (databases : Nat → Database) : Prop where
  orders : ∀ call, ∀ order ∈ (databases call).orders,
    ∃ order' ∈ (databases (call + 1)).orders, order'.id = order.id ∧ order'.userId = order.userId
  products : ∀ call, ∀ product ∈ (databases call).products.rows,
    ∃ product' ∈ (databases (call + 1)).products.rows, product'.id = product.id

variable {databases : Nat → Database}

theorem Grows.grows_visible (hgrows : Grows databases) (seesAll : Bool) (actorId : UserId) :
    Keyset.Grows Order.id (fun call => visible (databases call) seesAll actorId) 2147483647 where
  sorted call := sorted_visible (databases call) seesAll actorId
  bounded call order horder := ((databases call).serial order (mem_visible.mp horder).1).2
  kept call order horder := by
    obtain ⟨hmem, hsees⟩ := mem_visible.mp horder
    obtain ⟨order', hmem', hid, howner⟩ := hgrows.orders call order hmem
    exact ⟨order', mem_visible.mpr ⟨hmem', howner ▸ hsees⟩, hid⟩

theorem Grows.grows_products (hgrows : Grows databases) :
    Keyset.Grows Product.id (fun call => (databases call).products.rows) 2147483647 where
  sorted call := (databases call).products.sorted
  bounded call product hproduct := ((databases call).products.serial product hproduct).2
  kept := hgrows.products

theorem toOption_findAll {number : Text → JsNumber} {take : Int → Option (Option Nat)}
    {database : Database} {limit : JsNumber} {cursor : Option Text} {actor : Actor} :
    (findAll number take database limit cursor actor.id).toOption =
      Pagination.findPage number take Order.id toResponse limit cursor
        (visible database (database.users actor.id = some .admin) actor.id) := by
  unfold findAll
  rw [roleOf_actor]
  simp only [Bind.bind, Except.bind]
  cases Pagination.findPage number take Order.id toResponse limit cursor
      (visible database (database.users actor.id = some .admin) actor.id) with
  | none => rfl
  | some page => rfl

/-- The list of orders is read completely and without a repetition. -/
theorem orders_traversesOnce {number : Text → JsNumber} (hnumber : ReadsDecimals number)
    {take : Int → Option (Option Nat)} (htake : LimitsRows true take) (hgrows : Grows databases)
    (actor : Actor) (role : Option UserRole)
    (hrole : ∀ call, (databases call).users actor.id = role) {limit : Nat} (hlimit : 1 ≤ limit)
    (hmax : limit ≤ maxLimit) :
    ∃ orders, TraversesOnce
      (fun call cursor =>
        (findAll number take (databases call) (.integer limit) cursor actor.id).toOption)
      Order.id toResponse (fun call => visible (databases call) (role = some .admin) actor.id)
      orders := by
  apply Pagination.exists_traversesOnce hnumber htake hlimit hmax (hgrows.grows_visible _ actor.id)
  · exact fun call order horder => ((databases call).serial order (mem_visible.mp horder).1).1
  · intro call cursor
    rw [toOption_findAll, hrole call]

/-- Both lists are read completely and without a repetition, and a cursor tells the id it was made
from. -/
theorem findAll_traversal {number : Text → JsNumber} (hnumber : ReadsDecimals number)
    {takeOrders takeProducts : Int → Option (Option Nat)} (horders : LimitsRows true takeOrders)
    (hproducts : LimitsRows false takeProducts) (hgrows : Grows databases) :
    (∀ (actor : Actor) (role : Option UserRole),
      (∀ call, (databases call).users actor.id = role) → ∀ limit : Nat,
      1 ≤ limit → limit ≤ maxLimit →
      ∃ orders, TraversesOnce
        (fun call cursor =>
          (findAll number takeOrders (databases call) (.integer limit) cursor actor.id).toOption)
        Order.id toResponse (fun call => visible (databases call) (role = some .admin) actor.id)
        orders) ∧
    (∀ limit : Nat, 1 ≤ limit → limit ≤ maxLimit → ∃ products, TraversesOnce
      (fun call cursor =>
        Products.findAll number takeProducts (databases call).products (.integer limit) cursor)
      Product.id Products.toResponse (fun call => (databases call).products.rows) products) ∧
    ∀ id, decodeCursor (encodeCursor id) = some id := by
  refine ⟨?_, ?_, Pagination.decodeCursor_encodeCursor⟩
  · intro actor role hrole limit hlimit hmax
    exact orders_traversesOnce hnumber horders hgrows actor role hrole hlimit hmax
  · intro limit hlimit hmax
    apply Pagination.exists_traversesOnce hnumber hproducts hlimit hmax hgrows.grows_products
    · exact fun call product hproduct => ((databases call).products.serial product hproduct).1
    · exact fun call cursor => rfl

/-- What TypeORM and Postgres make of a `take`, up to the rounding of large numbers. -/
def limitOf (joined : Bool) (count : Int) : Option (Option Nat) :=
  if count < 0 then none
  else if count = 0 then some (if joined then none else some 0)
  else if count < 9223372036854775808 then some (some count.toNat) else none

theorem limitOf_pos (joined : Bool) {count : Nat} (hcount : 0 < count)
    (hlt : count < 9223372036854775808) : limitOf joined count = some (some count) := by
  rw [limitOf, if_neg (by omega), if_neg (by omega), if_pos (by omega), Int.toNat_natCast]

theorem limitsRows_limitOf (joined : Bool) : LimitsRows joined (limitOf joined) where
  zero := by
    rw [limitOf, if_neg (by decide), if_pos rfl]
  negative count hcount := if_pos hcount
  exact count hcount hle := limitOf_pos joined hcount (by omega)
  rounded count hcount taken htaken := by
    unfold limitOf at htaken
    rw [if_neg (by omega), if_neg (by omega)] at htaken
    split at htaken
    · cases htaken
      exact ⟨_, rfl, by omega⟩
    · cases htaken
  accepted count hcount := by
    rcases Nat.eq_zero_or_pos count with rfl | hpos
    · rw [limitOf, if_neg (by decide), if_pos (by decide)]
      exact nofun
    · have hlt : count < 9223372036854775808 := by
        unfold maxLimit at hcount
        omega
      rw [limitOf_pos joined hpos hlt]
      exact nofun
  refused count hcount := by
    rw [limitOf, if_neg (by omega), if_neg (by omega), if_neg (by omega)]

/-- A table that gets its first order while it is read. -/
def filling (call : Nat) : Database := if call = 0 then .noOrders else .foreign

theorem grows_filling : Grows filling where
  orders call order horder := by
    cases call with
    | zero => cases horder
    | succ call => exact ⟨order, horder, rfl, rfl⟩
  products call product hproduct := by
    cases call with
    | zero => cases hproduct
    | succ call => cases hproduct

theorem findAll_traversal_filling : ∃ orders, TraversesOnce
    (fun call cursor =>
      (findAll readDecimal (limitOf true) (filling call) (.integer 1) cursor 1).toOption)
    Order.id toResponse (fun call => visible (filling call) false 1) orders := by
  have hrole : ∀ call, (filling call).users 1 = some .customer := by
    intro call
    cases call with
    | zero => rfl
    | succ call => rfl
  exact (findAll_traversal readsDecimals_readDecimal (limitsRows_limitOf true)
    (limitsRows_limitOf false) grows_filling).1 ⟨1, rfl⟩ (some .customer) hrole 1 (Nat.le_refl 1)
    (by decide)

theorem not_traverses_of_refused {take : Int → Option (Option Nat)} (htake : LimitsRows true take)
    {number : Text → JsNumber} {limit : Int} (hlimit : 9223372036854775808 ≤ limit) (actor : Actor)
    (items : List Orders.OrderResponse) :
    ¬ Traverses (fun call cursor =>
      (findAll number take (databases call) (.integer limit) cursor actor.id).toOption) 0
      none items := by
  apply Pagination.not_traverses_of_none
  rw [toOption_findAll]
  exact Pagination.findPage_refused htake hlimit none _

/-- `?limit=10000000000000000000` is no `bigint`: the first page throws. -/
theorem findAll_traversal_refused : ¬ ∃ orders, TraversesOnce
    (fun call cursor =>
      (findAll readDecimal (limitOf true) (filling call) (.integer 10000000000000000000) cursor
        1).toOption)
    Order.id toResponse (fun call => visible (filling call) false 1) orders := by
  rintro ⟨orders, honce⟩
  exact not_traverses_of_refused (limitsRows_limitOf true) (by decide) ⟨1, rfl⟩ _
    ((honce.returns _).mpr rfl)

/-! ### The last page -/

/-- When the answers of both lists tell their ends. -/
theorem findAll_nullMeansEnd {number : Text → JsNumber} (hnumber : ReadsDecimals number)
    {takeOrders takeProducts : Int → Option (Option Nat)} (horders : LimitsRows true takeOrders)
    (hproducts : LimitsRows false takeProducts) (database : Database) (limit : Int)
    (cursor : Option Text) :
    (∀ actor : Actor, NullMeansEnd number Order.id toResponse
        (visible database (database.users actor.id = some .admin) actor.id) cursor
        (findAll number takeOrders database (.integer limit) cursor actor.id).toOption ↔
      ∀ left, moreThan Order.id (afterId number cursor)
        (visible database (database.users actor.id = some .admin) actor.id) = some left →
        LimitFits true limit left) ∧
    (NullMeansEnd number Product.id Products.toResponse database.products.rows cursor
        (Products.findAll number takeProducts database.products (.integer limit) cursor) ↔
      ∀ left, moreThan Product.id (afterId number cursor) database.products.rows = some left →
        LimitFits false limit left) := by
  constructor
  · intro actor
    rw [toOption_findAll]
    apply Pagination.nullMeansEnd_iff hnumber horders
    · exact sorted_visible database _ actor.id
    · exact fun order horder => database.serial order (mem_visible.mp horder).1
  · apply Pagination.nullMeansEnd_iff hnumber hproducts
    · exact database.products.sorted
    · exact database.products.serial

/-- One order, of the customer who asks. -/
def owned : Database :=
  .ofOrders [⟨7, some 1, "ada@example.com", "created", 500, "UAH", []⟩] (by decide) (by decide)
    (by decide)

theorem findAll_nullMeansEnd_owned : NullMeansEnd readDecimal Order.id toResponse
    (visible owned (owned.users 1 = some .admin) 1) none
    (findAll readDecimal (limitOf true) owned (.integer 1) none 1).toOption :=
  ((findAll_nullMeansEnd readsDecimals_readDecimal (limitsRows_limitOf true)
    (limitsRows_limitOf false)
    owned 1 none).1 ⟨1, rfl⟩).mpr
    fun _ _ => ⟨fun hlimit => absurd hlimit (by decide), fun hlimit => absurd hlimit (by decide)⟩

/-- With `?limit=0` the only order is neither on the page nor announced. -/
theorem findAll_zero_not_end : ¬ NullMeansEnd readDecimal Order.id toResponse
    (visible owned (owned.users 1 = some .admin) 1) none
    (findAll readDecimal (limitOf true) owned (.integer 0) none 1).toOption := by
  intro hend
  have hnull := (hend ⟨[], none⟩ (by decide) _ rfl).null rfl
  revert hnull
  decide

end Marketplace.OrdersService
