import Marketplace.Auth.AccessToken
import Marketplace.Orders.CreateIdempotent
import Marketplace.Products.ProductsService
import Mathlib.Data.List.Sort

/-!
# Who sees which order

The reads of `OrdersService`, on one state of the database. The list puts the owner into its WHERE
clause, the others fetch the row and look at the owner afterwards; either way the rows of others
answer like rows that are not there.
-/

namespace Marketplace.OrdersService

open Checkout (JsNumber)
open Orders (Order OrderResponse Failure toResponse)
open Pagination (PaginatedResult findPage)
open Products (ProductTable)

/-- `orders` in the order of its ids, with the `order_items` of each row. -/
structure Database where
  /-- `users.role`, by `users.id`. -/
  users : UserId → Option UserRole
  products : ProductTable
  orders : List Order
  sorted : orders.Pairwise fun left right => left.id < right.id
  serial : ∀ order ∈ orders, 0 < order.id ∧ order.id ≤ 2147483647
  owned : ∀ order ∈ orders, ∀ userId, order.userId = some userId → users userId ≠ none
  sold : ∀ order ∈ orders, ∀ item ∈ order.items,
    ∃ product ∈ products.rows, (product.id : Int) = item.productId

/-- Who asks: `id` is in the range of `users.id`, whose row may be gone by now. -/
structure Actor where
  id : UserId
  column : fitsInt4 id = true

section Reads

variable (number : Text → JsNumber) (take : Int → Option (Option Nat)) (database : Database)

def roleOf (userId : UserId) : Except Failure (Option UserRole) :=
  if fitsInt4 userId then .ok (database.users userId) else .error .internal

/-- The rows that `seesAll ? {} : { user: { id: actorId } }` leaves. -/
def visible (seesAll : Bool) (actorId : UserId) : List Order :=
  if seesAll then database.orders else database.orders.filter fun order => order.userId =
    some actorId

def findAll (limit : JsNumber) (cursor : Option Text) (actorId : UserId) :
    Except Failure (PaginatedResult OrderResponse) := do
  let role ← roleOf database actorId
  match findPage number take Order.id toResponse limit cursor
      (visible database (role = some .admin) actorId) with
  | some page => .ok page
  | none => .error .internal

/-- The row whose `id` equals the parameter; the statement fails if that is no `integer`. -/
def select (id : JsNumber) : Except Failure (Option Order) :=
  match id.toInt4 with
  | some value => .ok (database.orders.find? fun order => (order.id : Int) = value)
  | none => .error .internal

def findOne (orderId : Text) : Except Failure OrderResponse := do
  let entity ← if (number orderId).isNaN then .ok none else select database (number orderId)
  match entity with
  | some order => .ok (toResponse order)
  | none => .error (.orderNotFound orderId)

def assertCanView (orderId : Text) (actorId : UserId) : Except Failure Unit :=
  if (number orderId).isInteger then do
    match ← select database (number orderId) with
    | none => .error (.orderNotFound orderId)
    | some order =>
        if order.userId = some actorId then .ok ()
        else
          let role ← roleOf database actorId
          if role ≠ some .admin then .error (.orderNotFound orderId) else .ok ()
  else .error (.orderNotFound orderId)

def findOneFor (orderId : Text) (actorId : UserId) : Except Failure OrderResponse := do
  assertCanView number database orderId actorId
  findOne number database orderId

def canView (orderId : JsNumber) (actorId : UserId) : Except Failure Bool :=
  match assertCanView number database orderId.text actorId with
  | .ok () => .ok true
  | .error (.orderNotFound _) => .ok false
  | .error failure => .error failure

/-- What the reads of one order come to for an actor who is no admin: the row is looked for among
the actor's own. -/
def ownOrder (orderId : Text) (actorId : UserId) : Except Failure Order :=
  match number orderId with
  | .integer id =>
      if fitsInt4 id then
        match (visible database false actorId).find? fun order => (order.id : Int) = id with
        | some order => .ok order
        | none => .error (.orderNotFound orderId)
      else .error .internal
  | .other _ => .error (.orderNotFound orderId)

end Reads

variable {number : Text → JsNumber} {take : Int → Option (Option Nat)} {database : Database}
  {actor : Actor} {order : Order}

theorem roleOf_actor (database : Database) (actor : Actor) :
    roleOf database actor.id = .ok (database.users actor.id) :=
  if_pos actor.column

theorem mem_visible {seesAll : Bool} {actorId : UserId} : order ∈ visible database seesAll actorId ↔
    order ∈ database.orders ∧ (seesAll = true ∨ order.userId = some actorId) := by
  cases seesAll with
  | true => simp [visible]
  | false => simp [visible]

/-- An id names one row. -/
theorem find_eq_some_iff {orders : List Order} {id : Int}
    (hsorted : orders.Pairwise fun left right => left.id < right.id) :
    (orders.find? fun order => (order.id : Int) = id) = some order ↔
      order ∈ orders ∧ (order.id : Int) = id := by
  constructor
  · intro hfind
    exact ⟨List.mem_of_find?_eq_some hfind, by simpa using List.find?_some hfind⟩
  · rintro ⟨hmem, hid⟩
    obtain ⟨front, back, rfl⟩ := List.append_of_mem hmem
    have hbefore : (front.find? fun order => (order.id : Int) = id) = none := by
      rw [List.find?_eq_none]
      intro other hother
      have hlt : other.id < order.id :=
        (List.pairwise_append.mp hsorted).2.2 other hother order List.mem_cons_self
      rw [decide_eq_true_eq]
      exact fun heq => Nat.ne_of_lt hlt (Int.ofNat.inj (heq.trans hid.symm))
    rw [List.find?_append, hbefore, Option.none_or]
    exact List.find?_cons_of_pos (decide_eq_true hid)

theorem sorted_visible (database : Database) (seesAll : Bool) (actorId : UserId) :
    (visible database seesAll actorId).Pairwise fun left right => left.id < right.id := by
  cases seesAll with
  | true => exact database.sorted
  | false => exact database.sorted.sublist List.filter_sublist

theorem find_visible_of_own {id : Int}
    (hfind : (database.orders.find? fun order => (order.id : Int) = id) = some order)
    (hown : order.userId = some actor.id) :
    ((visible database false actor.id).find? fun order => (order.id : Int) = id) = some order := by
  obtain ⟨hmem, hid⟩ := (find_eq_some_iff database.sorted).mp hfind
  exact (find_eq_some_iff (sorted_visible database false actor.id)).mpr
    ⟨mem_visible.mpr ⟨hmem, .inr hown⟩, hid⟩

/-- A row of somebody else is like no row. -/
theorem find_visible_of_foreign (actor : Actor) {id : Int}
    (hforeign : ∀ order, (database.orders.find? fun order => (order.id : Int) = id) = some order →
      order.userId ≠ some actor.id) :
    ((visible database false actor.id).find? fun order => (order.id : Int) = id) = none := by
  rw [List.find?_eq_none]
  intro order hvisible
  obtain ⟨hmem, hown⟩ := mem_visible.mp hvisible
  rw [decide_eq_true_eq]
  intro hid
  have hfind := (find_eq_some_iff database.sorted).mpr ⟨hmem, hid⟩
  exact hforeign order hfind (hown.resolve_left Bool.false_ne_true)

theorem select_integer {id : Int} (hfits : fitsInt4 id = true) : select database (.integer id) =
    .ok (database.orders.find? fun order => (order.id : Int) = id) := by
  rw [select, JsNumber.toInt4, if_pos hfits]

theorem select_out_of_range {id : Int} (hfits : ¬ fitsInt4 id = true) :
    select database (.integer id) = .error .internal := by
  rw [select, JsNumber.toInt4, if_neg hfits]

theorem assertCanView_integer {orderId : Text} {id : Int} (hnumber : number orderId = .integer id)
    (hfits : fitsInt4 id = true) : assertCanView number database orderId actor.id =
      match database.orders.find? fun order => (order.id : Int) = id with
      | none => .error (.orderNotFound orderId)
      | some order =>
          if order.userId = some actor.id ∨ database.users actor.id = some .admin then .ok ()
          else .error (.orderNotFound orderId) := by
  have hinteger : (number orderId).isInteger = true := by rw [hnumber]; rfl
  unfold assertCanView
  rw [if_pos hinteger, hnumber, select_integer hfits]
  cases database.orders.find? fun order => (order.id : Int) = id with
  | none => rfl
  | some order =>
      by_cases hown : order.userId = some actor.id
      · exact (if_pos hown).trans (if_pos (.inl hown)).symm
      · by_cases hadmin : database.users actor.id = some .admin
        · simp [hown, hadmin, roleOf_actor, Bind.bind, Except.bind]
        · simp [hown, hadmin, roleOf_actor, Bind.bind, Except.bind]

theorem assertCanView_out_of_range {orderId : Text} {id : Int}
    (hnumber : number orderId = .integer id) (hfits : ¬ fitsInt4 id = true) (actorId : UserId) :
    assertCanView number database orderId actorId = .error .internal := by
  have hinteger : (number orderId).isInteger = true := by rw [hnumber]; rfl
  unfold assertCanView
  rw [if_pos hinteger, hnumber, select_out_of_range hfits]
  rfl

theorem assertCanView_other {orderId text : Text} (hnumber : number orderId = .other text)
    (actorId : UserId) :
    assertCanView number database orderId actorId = .error (.orderNotFound orderId) := by
  have hinteger : ¬ (number orderId).isInteger = true := by rw [hnumber]; exact Bool.false_ne_true
  exact if_neg hinteger

theorem findOne_integer {orderId : Text} {id : Int} (hnumber : number orderId = .integer id)
    (hfits : fitsInt4 id = true) : findOne number database orderId =
      match database.orders.find? fun order => (order.id : Int) = id with
      | none => .error (.orderNotFound orderId)
      | some order => .ok (toResponse order) := by
  have hnan : ¬ (number orderId).isNaN = true := by
    rw [hnumber]
    exact Bool.false_ne_true
  unfold findOne
  rw [if_neg hnan, hnumber, select_integer hfits]
  cases database.orders.find? fun order => (order.id : Int) = id with
  | none => rfl
  | some order => rfl

/-! ### An actor who is no admin -/

theorem assertCanView_of_not_admin (hrole : database.users actor.id ≠ some .admin)
    (orderId : Text) :
    assertCanView number database orderId actor.id =
      (ownOrder number database orderId actor.id).map fun _ => () := by
  unfold ownOrder
  cases hnumber : number orderId with
  | other text =>
      rw [assertCanView_other hnumber]
      rfl
  | integer id =>
      dsimp only
      by_cases hfits : fitsInt4 id = true
      · rw [assertCanView_integer hnumber hfits, if_pos hfits]
        cases hfind : database.orders.find? fun order => (order.id : Int) = id with
        | none =>
            rw [find_visible_of_foreign actor (by rw [hfind]; rintro _ ⟨⟩)]
            rfl
        | some order =>
            by_cases hown : order.userId = some actor.id
            · rw [find_visible_of_own hfind hown]
              exact if_pos (.inl hown)
            · rw [find_visible_of_foreign actor (by rw [hfind]; rintro _ ⟨⟩; exact hown)]
              exact if_neg (not_or.mpr ⟨hown, hrole⟩)
      · rw [assertCanView_out_of_range hnumber hfits, if_neg hfits]
        rfl

theorem findOneFor_of_not_admin (hrole : database.users actor.id ≠ some .admin) (orderId : Text) :
    findOneFor number database orderId actor.id =
      (ownOrder number database orderId actor.id).map toResponse := by
  unfold findOneFor
  rw [assertCanView_of_not_admin hrole]
  unfold ownOrder
  cases hnumber : number orderId with
  | other text => rfl
  | integer id =>
      dsimp only
      by_cases hfits : fitsInt4 id = true
      · rw [if_pos hfits]
        cases hfind : (visible database false actor.id).find? fun order =>
          (order.id : Int) = id with
        | none => rfl
        | some order =>
            have hsome := (find_eq_some_iff (sorted_visible database false actor.id)).mp hfind
            have hrow :=
              (find_eq_some_iff database.sorted).mpr ⟨(mem_visible.mp hsome.1).1, hsome.2⟩
            have hfound : findOne number database orderId = _ := findOne_integer hnumber hfits
            rw [hrow] at hfound
            exact hfound
      · rw [if_neg hfits]
        rfl

/-- Two states of the database that an actor who is no admin should not tell apart. -/
structure Agree (actor : Actor) (left right : Database) : Prop where
  users : left.users = right.users
  products : left.products = right.products
  own : ∀ order, order.userId = some actor.id → (order ∈ left.orders ↔ order ∈ right.orders)

theorem Agree.visible_eq {left right : Database} (hagree : Agree actor left right) :
    visible left false actor.id = visible right false actor.id := by
  have hirrefl : Std.Irrefl fun left right : Order => left.id < right.id :=
    ⟨fun _ => Nat.lt_irrefl _⟩
  have hantisymm : Std.Antisymm fun left right : Order => left.id < right.id :=
    ⟨fun _ _ hlt hgt => absurd hgt (Nat.lt_asymm hlt)⟩
  apply List.Pairwise.eq_of_mem_iff (sorted_visible left false actor.id)
    (sorted_visible right false actor.id)
  intro order
  rw [mem_visible, mem_visible]
  constructor
  · rintro ⟨hmem, hown⟩
    exact ⟨(hagree.own order (hown.resolve_left Bool.false_ne_true)).mp hmem, hown⟩
  · rintro ⟨hmem, hown⟩
    exact ⟨(hagree.own order (hown.resolve_left Bool.false_ne_true)).mpr hmem, hown⟩

/-- The orders of others make no difference to what an actor who is no admin gets. -/
theorem foreign_orders_hidden (number : Text → JsNumber) (take : Int → Option (Option Nat))
    {left right : Database} {actor : Actor} (hrole : left.users actor.id ≠ some .admin)
    (hagree : Agree actor left right) :
    (∀ limit cursor, findAll number take left limit cursor actor.id =
      findAll number take right limit cursor actor.id) ∧
    (∀ orderId, findOneFor number left orderId actor.id =
      findOneFor number right orderId actor.id) ∧
    (∀ orderId,
      assertCanView number left orderId actor.id = assertCanView number right orderId actor.id) ∧
    ∀ orderId, canView number left orderId actor.id = canView number right orderId actor.id := by
  have hrole' : right.users actor.id ≠ some .admin := hagree.users ▸ hrole
  have hown : ∀ orderId, ownOrder number left orderId actor.id =
      ownOrder number right orderId actor.id := by
    intro orderId
    unfold ownOrder
    rw [hagree.visible_eq]
  have hassert : ∀ orderId,
      assertCanView number left orderId actor.id = assertCanView number right orderId actor.id := by
    intro orderId
    rw [assertCanView_of_not_admin hrole, assertCanView_of_not_admin hrole', hown]
  refine ⟨?_, ?_, hassert, ?_⟩
  · intro limit cursor
    unfold findAll
    rw [roleOf_actor, roleOf_actor, ← hagree.users]
    simp only [Bind.bind, Except.bind, hrole, decide_false, hagree.visible_eq]
  · intro orderId
    rw [findOneFor_of_not_admin hrole, findOneFor_of_not_admin hrole', hown]
  · intro orderId
    unfold canView
    rw [hassert]

/-- The orders of one customer, and orders without an owner. -/
def Database.ofOrders (orders : List Order)
    (hsorted : orders.Pairwise fun left right => left.id < right.id)
    (hserial : ∀ order ∈ orders, 0 < order.id ∧ order.id ≤ 2147483647)
    (howned : ∀ order ∈ orders, (order.userId = none ∨ order.userId = some 1) ∧ order.items = []) :
    Database where
  users := fun userId => if userId = 1 then some .customer else none
  products := .empty
  orders := orders
  sorted := hsorted
  serial := hserial
  owned order hmem userId howner := by
    rcases (howned order hmem).1 with hnone | hsome
    · rw [hnone] at howner
      cases howner
    · cases hsome.symm.trans howner
      nofun
  sold order hmem item hitem := by
    rw [(howned order hmem).2] at hitem
    exact absurd hitem List.not_mem_nil

def Database.foreign : Database :=
  .ofOrders [⟨7, none, "ada@example.com", "created", 500, "UAH", []⟩] (by decide) (by decide)
    (by decide)

def Database.noOrders : Database := .ofOrders [] .nil (by decide) (by decide)

theorem foreign_orders_hidden_once :
    findOneFor readDecimal .foreign ['7'] 1 = findOneFor readDecimal .noOrders ['7'] 1 ∧
      Database.foreign.orders ≠ Database.noOrders.orders := by
  have hown : ∀ order, order.userId = some 1 →
      (order ∈ Database.foreign.orders ↔ order ∈ Database.noOrders.orders) := by
    intro order howner
    constructor
    · intro hmem
      rw [List.mem_singleton.mp hmem] at howner
      cases howner
    · intro hmem
      cases hmem
  have hagree : Agree ⟨1, rfl⟩ .foreign .noOrders := ⟨rfl, rfl, hown⟩
  exact ⟨(foreign_orders_hidden readDecimal (fun _ => none) (by decide) hagree).2.1 ['7'],
    by decide⟩

end Marketplace.OrdersService
