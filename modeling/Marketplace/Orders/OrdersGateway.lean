import Marketplace.Orders.Traversal

/-!
# `OrdersGateway.handleJoin`, and what the read surfaces have in common

A socket carries the principal of its handshake. The payload of a join is any JSON value; `Number`
of it goes through `String` unless it is a primitive.
-/

namespace Marketplace.OrdersService

open Checkout (JsNumber)
open Orders (Order Failure toResponse)
open Pagination (LimitsRows Traverses maxLimit)

def toStringKey : Text := ['t', 'o', 'S', 't', 'r', 'i', 'n', 'g']

mutual

/-- `String(value)` of an item that an array joins; `none` is a TypeError. A member `toString` of an
object is no function, and without one the object has no primitive value. -/
def itemText : Json → Option Text
  | .null => some []
  | .bool true => some ['t', 'r', 'u', 'e']
  | .bool false => some ['f', 'a', 'l', 's', 'e']
  | .number literal => some literal.val
  | .string text => some text
  | .array [] => some []
  | .array (item :: items) => (itemText item).bind fun first => (itemsText items).map (first ++ ·)
  | .object members =>
      if members.any fun member => member.1 = toStringKey then none
      else some ['[', 'o', 'b', 'j', 'e', 'c', 't', ' ', 'O', 'b', 'j', 'e', 'c', 't', ']']

def itemsText : List Json → Option Text
  | [] => some []
  | item :: items =>
      (itemText item).bind fun first => (itemsText items).map fun rest => ',' :: (first ++ rest)

end

/-- `Number(value)`, where `none` is `undefined`. -/
def toNumber (number : Text → JsNumber) : Option Json → Option JsNumber
  | some .null => some (.integer 0)
  | some (.bool value) => some (.integer (if value then 1 else 0))
  | some value => (itemText value).map number
  | none => some (.other ['N', 'a', 'N'])

structure JoinAck where
  joined : Bool
  room : Option Text
  reason : Option String
  deriving DecidableEq

/-- The acknowledgement, and whether the socket has been disconnected. -/
structure JoinResult where
  ack : JoinAck
  disconnected : Bool
  deriving DecidableEq

def JoinResult.refused (reason : String) (disconnected : Bool) : JoinResult :=
  ⟨⟨false, none, some reason⟩, disconnected⟩

def roomName (orderId : JsNumber) : Text := ['o', 'r', 'd', 'e', 'r', 's', ':'] ++ orderId.text

def orderIdKey : Text := ['o', 'r', 'd', 'e', 'r', 'I', 'd']

def userIdKey : Text := ['u', 's', 'e', 'r', 'I', 'd']

/-- `denylist` is `none` while Redis does not answer. -/
def handleJoin (number : Text → JsNumber) (database : Database) (denylist : Option Denylist)
    (principal : Option AccessPrincipal) (payload : Option Json) (now : Nat) :
    Except Failure JoinResult :=
  match principal with
  | none => .ok (.refused "unauthorized" true)
  | some principal =>
      if seconds principal.expiresAt ≤ now then .ok (.refused "unauthorized" true)
      else
        match toNumber number (payload.bind fun payload => payload.get orderIdKey) with
        | none => .error .internal
        | some orderId =>
            if orderId.isInteger then
              match denylist with
              | none => .ok (.refused "service_unavailable" false)
              | some denylist =>
                  if denylist.isDenied principal.jti principal.familyId now then
                    .ok (.refused "unauthorized" true)
                  else
                    match canView number database orderId principal.userId with
                    | .ok true => .ok ⟨⟨true, some (roomName orderId), none⟩, false⟩
                    | .ok false => .ok (.refused "not_found" false)
                    | .error failure => .error failure
            else .ok (.refused "orderId is required" false)

/-- The actor owns the order or is an admin in the database. -/
def Granted (database : Database) (actor : Actor) (order : Order) : Prop :=
  order.userId = some actor.id ∨ database.users actor.id = some .admin

/-- The payload asks for this order, by its number or by the text of it. -/
def Asks (payload : Json) (orderId : OrderId) : Prop :=
  payload.get orderIdKey = some (.string (decimal orderId)) ∨
    ∃ literal : JsonNumber, literal.val = decimal orderId ∧
      payload.get orderIdKey = some (.number literal)

variable {number : Text → JsNumber} {take : Int → Option (Option Nat)} {database : Database}
  {actor : Actor} {order : Order}

theorem fitsInt4_id (horder : order ∈ database.orders) : fitsInt4 order.id = true := by
  have hserial := Int.ofNat_le.mpr (database.serial order horder).2
  simp only [fitsInt4, Bool.and_eq_true, decide_eq_true_eq]
  omega

theorem find_id (horder : order ∈ database.orders) :
    (database.orders.find? fun other => (other.id : Int) = order.id) = some order :=
  (find_eq_some_iff database.sorted).mpr ⟨horder, rfl⟩

section Surfaces

variable (hnumber : ReadsDecimals number) (horder : order ∈ database.orders)
include hnumber horder

theorem assertCanView_iff :
    assertCanView number database (decimal order.id) actor.id = .ok () ↔
      Granted database actor order := by
  have hfits := fitsInt4_id horder
  rw [assertCanView_integer (hnumber _ hfits) hfits, find_id horder]
  dsimp only
  by_cases hgranted : order.userId = some actor.id ∨ database.users actor.id = some .admin
  · rw [if_pos hgranted]
    exact iff_of_true rfl hgranted
  · rw [if_neg hgranted]
    exact iff_of_false nofun hgranted

theorem findOneFor_iff :
    findOneFor number database (decimal order.id) actor.id = .ok (toResponse order) ↔
      Granted database actor order := by
  have hfits := fitsInt4_id horder
  have hfound : findOne number database (decimal order.id) = _ :=
    findOne_integer (hnumber _ hfits) hfits
  rw [find_id horder] at hfound
  rw [← assertCanView_iff hnumber horder]
  unfold findOneFor
  cases hview : assertCanView number database (decimal order.id) actor.id with
  | ok granted => exact iff_of_true hfound rfl
  | error failure => exact iff_of_false nofun nofun

theorem canView_iff :
    canView number database (.integer order.id) actor.id = .ok true ↔
      Granted database actor order := by
  rw [← assertCanView_iff hnumber horder]
  have htext : (JsNumber.integer order.id).text = decimal order.id := rfl
  rw [canView, htext]
  cases hview : assertCanView number database (decimal order.id) actor.id with
  | ok granted => exact iff_of_true rfl rfl
  | error failure => cases failure <;> simp

/-- A socket that gets past the checks of its own is answered by `canView`. -/
theorem handleJoin_iff {denylist : Denylist} {principal : AccessPrincipal} {payload : Json}
    {now : Nat} (hprincipal : principal.userId = actor.id)
    (hlive : now < seconds principal.expiresAt)
    (hallowed : denylist.isDenied principal.jti principal.familyId now = false)
    (hasks : Asks payload order.id) :
    (∃ result, handleJoin number database (some denylist) (some principal) (some payload) now =
      .ok result ∧ result.ack.joined = true) ↔ Granted database actor order := by
  have hid : toNumber number ((some payload).bind fun payload => payload.get orderIdKey) =
      some (.integer order.id) := by
    have hread := hnumber _ (fitsInt4_id horder)
    rcases hasks with htext | ⟨literal, hliteral, hnumeral⟩
    · rw [Option.bind_some, htext, toNumber, itemText, Option.map_some, hread]
      · nofun
      · nofun
    · rw [Option.bind_some, hnumeral, toNumber, itemText, Option.map_some, hliteral, hread]
      · nofun
      · nofun
  rw [← canView_iff hnumber horder]
  unfold handleJoin
  dsimp only
  have hinteger : (JsNumber.integer order.id).isInteger = true := rfl
  rw [if_neg (Nat.not_le.mpr hlive), hid]
  dsimp only
  rw [if_pos hinteger, hallowed, if_neg Bool.false_ne_true, hprincipal]
  cases canView number database (.integer order.id) actor.id with
  | error failure => exact iff_of_false (by rintro ⟨_, ⟨⟩, _⟩) nofun
  | ok answer =>
      cases answer with
      | true => exact iff_of_true ⟨_, rfl, rfl⟩ rfl
      | false => exact iff_of_false (by rintro ⟨_, ⟨⟩, ⟨⟩⟩) nofun

/-- The list shows what the other reads grant. -/
theorem traverses_iff (htake : LimitsRows true take) {limit : Nat} (hlimit : 1 ≤ limit)
    (hmax : limit ≤ maxLimit) :
    (∃ items, Traverses (fun _ cursor =>
        (findAll number take database (.integer limit) cursor actor.id).toOption) 0 none items ∧
      toResponse order ∈ items) ↔ Granted database actor order := by
  have hgrows : Grows fun _ => database :=
    ⟨fun _ order horder => ⟨order, horder, rfl, rfl⟩,
      fun _ product hproduct => ⟨product, hproduct, rfl⟩⟩
  obtain ⟨orders, honce⟩ :=
    orders_traversesOnce hnumber htake hgrows actor _ (fun _ => rfl) hlimit hmax
  have hunique : ∀ row ∈ database.orders, row.id = order.id → row = order := by
    intro row hrow hid
    have hfind := find_id hrow
    rw [hid, find_id horder] at hfind
    exact (Option.some.inj hfind).symm
  constructor
  · rintro ⟨items, htraverses, hmem⟩
    rw [(honce.returns items).mp htraverses, List.mem_map] at hmem
    obtain ⟨row, hrow, hresponse⟩ := hmem
    obtain ⟨_, hvisible⟩ := honce.visible row hrow
    obtain ⟨hstored, hsees⟩ := mem_visible.mp hvisible
    have hid : row.id = order.id :=
      decimal_nat_injective (congrArg Orders.OrderResponse.id hresponse)
    rw [hunique row hstored hid, decide_eq_true_eq] at hsees
    exact hsees.symm
  · intro hgranted
    have hvisible : order ∈ visible database (database.users actor.id = some .admin) actor.id :=
      mem_visible.mpr ⟨horder, by rw [decide_eq_true_eq]; exact hgranted.symm⟩
    obtain ⟨row, hfound⟩ := List.length_eq_one_iff.mp (honce.once order hvisible)
    have hrow : row ∈ orders.filter fun found => found.id = order.id := by
      rw [hfound]
      exact List.mem_singleton_self row
    obtain ⟨hmem, hid⟩ := List.mem_filter.mp hrow
    obtain ⟨_, hstored⟩ := honce.visible row hmem
    rw [hunique row (mem_visible.mp hstored).1 (of_decide_eq_true hid)] at hmem
    exact ⟨_, (honce.returns _).mpr rfl, List.mem_map_of_mem hmem⟩

end Surfaces

theorem get_filter_ne {key other : Text} (hne : key ≠ other) (members : List (Text × Json)) :
    Json.get key (.object (members.filter fun member => member.1 ≠ other)) =
      Json.get key (.object members) := by
  rw [Json.get, Json.get, ← List.filter_reverse, List.find?_filter]
  congr 2
  funext member
  by_cases hkey : member.1 = key
  · simp [hkey, hne]
  · simp [hkey]

/-- All four read surfaces grant the same orders, to the owner and to whom the database calls an
admin, and a `userId` in the payload of a join makes no difference. -/
theorem read_surfaces_agree (hnumber : ReadsDecimals number) (htake : LimitsRows true take)
    (database : Database) (actor : Actor) {order : Order} (horder : order ∈ database.orders) :
    (∀ limit : Nat, 1 ≤ limit → limit ≤ maxLimit → ((∃ items, Traverses (fun _ cursor =>
        (findAll number take database (.integer limit) cursor actor.id).toOption) 0 none items ∧
      toResponse order ∈ items) ↔ Granted database actor order)) ∧
    (findOneFor number database (decimal order.id) actor.id = .ok (toResponse order) ↔
      Granted database actor order) ∧
    (assertCanView number database (decimal order.id) actor.id = .ok () ↔
      Granted database actor order) ∧
    (∀ (denylist : Denylist) (principal : AccessPrincipal) (payload : Json) (now : Nat),
      principal.userId = actor.id → now < seconds principal.expiresAt →
      denylist.isDenied principal.jti principal.familyId now = false → Asks payload order.id →
      ((∃ result, handleJoin number database (some denylist) (some principal) (some payload) now =
        .ok result ∧ result.ack.joined = true) ↔ Granted database actor order)) ∧
    ∀ (denylist : Option Denylist) (principal : Option AccessPrincipal)
      (members : List (Text × Json)) (now : Nat),
      handleJoin number database denylist principal (some (.object members)) now =
        handleJoin number database denylist principal
          (some (.object (members.filter fun member => member.1 ≠ userIdKey))) now := by
  refine ⟨fun limit hlimit hmax => traverses_iff hnumber horder htake hlimit hmax,
    findOneFor_iff hnumber horder, assertCanView_iff hnumber horder, ?_, ?_⟩
  · intro denylist principal payload now hprincipal hlive hallowed hasks
    exact handleJoin_iff hnumber horder hprincipal hlive hallowed hasks
  · intro denylist principal members now
    unfold handleJoin
    rw [Option.bind_some, Option.bind_some, get_filter_ne (by decide)]

def ownOrderRow : Order := ⟨8, some 1, "ada@example.com", "created", 500, "UAH", []⟩

def Database.own : Database := .ofOrders [ownOrderRow] (by decide) (by decide) (by decide)

theorem read_surfaces_agree_owner : assertCanView readDecimal .own ['8'] 1 = .ok () := by
  have hstored : ownOrderRow ∈ Database.own.orders := List.mem_singleton_self ownOrderRow
  exact (read_surfaces_agree readsDecimals_readDecimal (limitsRows_limitOf true) .own ⟨1, rfl⟩
    hstored).2.2.1.mpr (.inl rfl)

/-- With `?limit=10000000000000000000` the owner reads the order by its id, and no list shows it. -/
theorem list_refused :
    assertCanView readDecimal .own (decimal ownOrderRow.id) 1 = .ok () ∧
      ¬ ∃ items, Traverses (fun _ cursor =>
          (findAll readDecimal (limitOf true) .own (.integer 10000000000000000000) cursor
            1).toOption) 0 none items ∧
        toResponse ownOrderRow ∈ items := by
  refine ⟨by decide, ?_⟩
  rintro ⟨items, htraverses, -⟩
  exact not_traverses_of_refused (limitsRows_limitOf true) (by decide) ⟨1, rfl⟩ items htraverses

end Marketplace.OrdersService
