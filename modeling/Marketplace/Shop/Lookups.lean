import Marketplace.Orders.OrdersGateway
import Marketplace.Orders.UpdateStatus
import Marketplace.Shop.CardNumbers

/-!
# Lookups by id

Every lookup makes a number of the id it is given. Some check it for NaN and some for an integer;
none checks for the range of the column, and the first kind lets fractions and infinities pass as
well.
-/

namespace Marketplace.Lookups

open Checkout (JsNumber)
open Orders (Order OrderResponse)
open OrdersService (Actor Database Granted JoinResult assertCanView canView findOneFor handleJoin
  orderIdKey toNumber)
open Products (FindFailure ProductTable ProductResponse)
open Shop (ProductCard Store cardKey cardOf loadCard ordersOf unitsOf)
open UpdateStatus (Phase State)
open Transition

/-- `ProductsController.getCard`. -/
def getCard {Digest : Type} (number : Text → JsNumber) (store : Store Digest) (productId : Text) :
    Except FindFailure ProductCard :=
  match number productId with
  | .integer id =>
      if 0 < id then
        match (Shop.getCard number store id).1 with
        | none => .error .internal
        | some none => .error (.productNotFound productId)
        | some (some card) => .ok card
      else .error (.productNotFound productId)
  | .other _ => .error (.productNotFound productId)

/-- The answer is a resource that is meant, or that there is none. -/
def Settles {Failure Resource : Type} (meant : Resource → Prop) (notFound : Failure) :
    Except Failure Resource → Prop
  | .ok resource => meant resource
  | .error failure => failure = notFound

/-- What a lookup that checks for NaN can look for. -/
def NaNOrId (id : JsNumber) : Prop := id.isNaN = true ∨ ∃ value, id.toInt4 = some value

/-- What a lookup that checks for an integer can look for. -/
def NoIntegerOrId (id : JsNumber) : Prop := id.isInteger = true → ∃ value, id.toInt4 = some value

variable {number : Text → JsNumber} {database : Database} {actor : Actor}

/-! ### Products -/

theorem findOne_settles_iff (products : ProductTable) (productId : Text) :
    Settles (fun response => ∃ product ∈ products.rows, number productId = .integer product.id ∧
        response = Products.toResponse product)
      (.productNotFound productId) (Products.findOne number products productId) ↔
    NaNOrId (number productId) := by
  unfold Products.findOne NaNOrId
  by_cases hnan : (number productId).isNaN = true
  · rw [if_pos hnan]
    exact iff_of_true rfl (.inl hnan)
  · rw [if_neg hnan]
    cases hvalue : (number productId).toInt4 with
    | none => exact iff_of_false nofun (by simpa using hnan)
    | some value =>
        refine iff_of_true ?_ (.inr ⟨value, rfl⟩)
        dsimp only
        cases hfind : products.rows.find? fun product => (product.id : Int) = value with
        | none => rfl
        | some product =>
            have hid : (product.id : Int) = value := by simpa using List.find?_some hfind
            refine ⟨product, List.mem_of_find?_eq_some hfind, ?_, rfl⟩
            rw [hid]
            exact (JsNumber.toInt4_eq_some.mp hvalue).1

/-- A positive id is cached; or it is in the range of the column, and so are the sums over the items
of its product that the query casts to `integer`. -/
def CardReadable {Digest : Type} (store : Store Digest) (id : JsNumber) : Prop :=
  ∀ value, id = .integer value → 0 < value →
    (∃ cached, store.cache (cardKey value) = some cached) ∨
      fitsInt4 value = true ∧ ∀ product, store.catalogue.find value = some product →
        fitsInt4 (unitsOf (store.itemsOf value)) = true ∧
          fitsInt4 (ordersOf (store.itemsOf value)).length = true

/-- The card of an id: what is cached, or what the rows of its product come to. -/
def IsCardOf {Digest : Type} (number : Text → JsNumber) (store : Store Digest) (id : Int)
    (card : ProductCard) : Prop :=
  store.cache (cardKey id) = some (some card) ∨
    ∃ product, store.catalogue.find id = some product ∧
      card = cardOf number product (store.itemsOf id)

section Cards

variable {Digest : Type} {store : Store Digest} {id : Int}

theorem loadCard_eq_none_iff : loadCard number store id = none ↔
    ¬ (fitsInt4 id = true ∧ ∀ product, store.catalogue.find id = some product →
      fitsInt4 (unitsOf (store.itemsOf id)) = true ∧
        fitsInt4 (ordersOf (store.itemsOf id)).length = true) := by
  unfold loadCard
  by_cases hid : fitsInt4 id = true
  · rw [if_pos hid]
    cases hfind : store.catalogue.find id with
    | none => simp [hid]
    | some product =>
        have hunits : (cardOf number product (store.itemsOf id)).unitsSold =
            unitsOf (store.itemsOf id) := rfl
        have horders : (cardOf number product (store.itemsOf id)).ordersCount =
            (ordersOf (store.itemsOf id)).length := rfl
        simp [hid, hunits, horders]
  · simp [hid]

theorem isCardOf_of_loadCard {card : ProductCard}
    (hload : loadCard number store id = some (some card)) :
    IsCardOf number store id card := by
  unfold loadCard at hload
  split at hload
  case isFalse => cases hload
  split at hload
  · cases hload
  · rename_i product hfind
    dsimp only at hload
    split at hload
    · cases hload
      exact .inr ⟨product, hfind, rfl⟩
    · cases hload

end Cards

theorem getCard_settles_iff {Digest : Type} (store : Store Digest) (productId : Text) :
    Settles (fun card => ∃ id, number productId = .integer id ∧ IsCardOf number store id card)
      (.productNotFound productId) (getCard number store productId) ↔
    CardReadable store (number productId) := by
  unfold getCard CardReadable
  cases hnumber : number productId with
  | other text => exact iff_of_true rfl fun value hvalue => nomatch hvalue
  | integer id =>
      simp only [JsNumber.integer.injEq, forall_eq']
      by_cases hpositive : 0 < id
      · rw [if_pos hpositive]
        unfold Shop.getCard
        cases hcache : store.cache (cardKey id) with
        | some value =>
            refine iff_of_true ?_ fun _ => .inl ⟨value, rfl⟩
            cases value with
            | none => rfl
            | some card => exact ⟨id, rfl, .inl hcache⟩
        | none =>
            cases hload : loadCard number store id with
            | none =>
                refine iff_of_false nofun fun hreadable => loadCard_eq_none_iff.mp hload ?_
                exact (hreadable hpositive).resolve_left nofun
            | some loaded =>
                refine iff_of_true ?_ fun _ => .inr ?_
                · cases loaded with
                  | none => rfl
                  | some card => exact ⟨id, rfl, isCardOf_of_loadCard hload⟩
                · by_contra hunreadable
                  rw [loadCard_eq_none_iff.mpr hunreadable] at hload
                  cases hload
      · rw [if_neg hpositive]
        exact iff_of_true rfl fun h => absurd h hpositive

/-! ### Orders that are read -/

/-- An order with this id that the actor may see. -/
def Meant (database : Database) (actor : Actor) (id : JsNumber) : Prop :=
  ∃ order ∈ database.orders, id = .integer order.id ∧ Granted database actor order

section Reads

variable (number database actor)

/-- Everything the check can answer. -/
theorem assertCanView_cases (orderId : Text) :
    (NoIntegerOrId (number orderId) ∧
      (assertCanView number database orderId actor.id = .ok () ∧
        Meant database actor (number orderId) ∨
        assertCanView number database orderId actor.id = .error (.orderNotFound orderId))) ∨
    (¬ NoIntegerOrId (number orderId) ∧
      assertCanView number database orderId actor.id = .error .internal) := by
  cases hnumber : number orderId with
  | other text => exact .inl ⟨nofun, .inr (OrdersService.assertCanView_other hnumber actor.id)⟩
  | integer id =>
      by_cases hfits : fitsInt4 id = true
      · refine .inl ⟨fun _ => ⟨id, JsNumber.toInt4_eq_some.mpr ⟨rfl, hfits⟩⟩, ?_⟩
        rw [OrdersService.assertCanView_integer hnumber hfits]
        cases hfind : database.orders.find? fun order => (order.id : Int) = id with
        | none => exact .inr rfl
        | some order =>
            obtain ⟨hmem, hid⟩ := (OrdersService.find_eq_some_iff database.sorted).mp hfind
            by_cases hgranted : order.userId = some actor.id ∨ database.users actor.id = some .admin
            · exact .inl ⟨if_pos hgranted, order, hmem,
                congrArg JsNumber.integer hid.symm, hgranted⟩
            · exact .inr (if_neg hgranted)
      · refine .inr ⟨fun hid => ?_, OrdersService.assertCanView_out_of_range hnumber hfits actor.id⟩
        obtain ⟨value, hvalue⟩ := hid rfl
        rw [JsNumber.toInt4, if_neg hfits] at hvalue
        cases hvalue

theorem assertCanView_settles_iff (orderId : Text) :
    Settles (fun _ => Meant database actor (number orderId)) (.orderNotFound orderId)
      (assertCanView number database orderId actor.id) ↔ NoIntegerOrId (number orderId) := by
  obtain ⟨hid, ⟨hview, hmeant⟩ | hview⟩ |
      ⟨hid, hview⟩ := assertCanView_cases number database actor orderId
  · rw [hview]
    exact iff_of_true hmeant hid
  · rw [hview]
    exact iff_of_true rfl hid
  · rw [hview]
    exact iff_of_false nofun hid

theorem findOneFor_settles_iff (orderId : Text) :
    Settles (fun response => ∃ order ∈ database.orders, number orderId = .integer order.id ∧
        Granted database actor order ∧ response = Orders.toResponse order)
      (.orderNotFound orderId) (findOneFor number database orderId actor.id) ↔
    NoIntegerOrId (number orderId) := by
  unfold findOneFor
  obtain ⟨hid, ⟨hview, hmeant⟩ | hview⟩ |
      ⟨hid, hview⟩ := assertCanView_cases number database actor orderId
  · obtain ⟨order, hmem, hnumber, hgranted⟩ := hmeant
    have hfound : OrdersService.findOne number database orderId = _ :=
      OrdersService.findOne_integer hnumber (OrdersService.fitsInt4_id hmem)
    rw [OrdersService.find_id hmem] at hfound
    simp only [hview, Bind.bind, Except.bind, hfound]
    exact iff_of_true ⟨order, hmem, hnumber, hgranted, rfl⟩ hid
  · rw [hview]
    exact iff_of_true rfl hid
  · rw [hview]
    exact iff_of_false nofun hid

theorem canView_settles_iff (orderId : JsNumber) :
    (∃ answer, canView number database orderId actor.id = .ok answer ∧
      (answer = true → Meant database actor (number orderId.text))) ↔
    NoIntegerOrId (number orderId.text) := by
  unfold canView
  obtain ⟨hid, ⟨hview, hmeant⟩ | hview⟩ | ⟨hid, hview⟩ :=
    assertCanView_cases number database actor orderId.text
  · rw [hview]
    exact iff_of_true ⟨true, rfl, fun _ => hmeant⟩ hid
  · rw [hview]
    exact iff_of_true ⟨false, rfl, nofun⟩ hid
  · rw [hview]
    refine iff_of_false ?_ hid
    rintro ⟨answer, hanswer, -⟩
    cases hanswer

/-- What a join can be answered: the conversion of its payload throws no TypeError, and a socket
that passes its own checks names an id that can be looked for. -/
def JoinFits (denylist : Option Denylist) (principal : AccessPrincipal) (payload : Option Json)
    (now : Nat) : Prop :=
  now < seconds principal.expiresAt →
    ∃ orderId, toNumber number (payload.bind fun payload => payload.get orderIdKey) = some orderId ∧
      (orderId.isInteger = true → ∀ answer, denylist = some answer →
        answer.isDenied principal.jti principal.familyId now = false →
        NoIntegerOrId (number orderId.text))

theorem handleJoin_settles_iff (denylist : Option Denylist) (principal : AccessPrincipal)
    (hprincipal : principal.userId = actor.id) (payload : Option Json) (now : Nat) :
    (∃ result, handleJoin number database denylist (some principal) payload now = .ok result ∧
      (result.ack.joined = true → ∃ orderId : JsNumber,
        toNumber number (payload.bind fun payload => payload.get orderIdKey) = some orderId ∧
        Meant database actor (number orderId.text))) ↔
    JoinFits number denylist principal payload now := by
  unfold handleJoin JoinFits
  dsimp only
  by_cases hlive : seconds principal.expiresAt ≤ now
  · rw [if_pos hlive]
    exact iff_of_true ⟨_, rfl, nofun⟩ fun hless => absurd hlive (Nat.not_le.mpr hless)
  rw [if_neg hlive]
  simp only [Nat.lt_of_not_le hlive, true_imp_iff]
  cases horder : toNumber number (payload.bind fun payload => payload.get orderIdKey) with
  | none => exact iff_of_false (by rintro ⟨_, ⟨⟩, _⟩) (by rintro ⟨_, ⟨⟩, _⟩)
  | some orderId =>
      simp only [Option.some.injEq, exists_eq_left']
      by_cases hinteger : orderId.isInteger = true
      · rw [if_pos hinteger]
        simp only [hinteger, true_imp_iff]
        cases denylist with
        | none => exact iff_of_true ⟨_, rfl, nofun⟩ nofun
        | some answer =>
            simp only [Option.some.injEq, forall_eq']
            by_cases hdenied : answer.isDenied principal.jti principal.familyId now = true
            · rw [if_pos hdenied]
              refine iff_of_true ⟨_, rfl, nofun⟩ fun hallowed => ?_
              exact absurd hdenied (by rw [hallowed]; exact Bool.false_ne_true)
            · rw [if_neg hdenied, hprincipal, ← canView_settles_iff number database actor orderId]
              simp only [Bool.eq_false_of_not_eq_true hdenied, true_imp_iff]
              cases hview : canView number database orderId actor.id with
              | error failure => exact iff_of_false (by rintro ⟨_, ⟨⟩, _⟩) (by rintro ⟨_, ⟨⟩, _⟩)
              | ok answer =>
                  cases answer with
                  | true => simp
                  | false => simp [JoinResult.refused]
      · rw [if_neg hinteger]
        exact iff_of_true ⟨_, rfl, nofun⟩ fun h => absurd h hinteger

end Reads

/-! ### Orders that are updated -/

/-- Nothing fails but on account of what a call asks for, and `call` is given this id. -/
def GivenId (call : Call) (orderId : Text) (_ : State) : UpdateStatus.Action → Prop
  | .updateStatus other given _ => other = call → given = orderId
  | .fail _ => False
  | _ => True

instance (call : Call) (orderId : Text) (state : State) (action : UpdateStatus.Action) :
    Decidable (GivenId call orderId state action) := by
  unfold GivenId
  split <;> infer_instance

def WellKeyed (orders : OrderId → Option Order) : Prop := ∀ id order, orders id = some order →
    order.id = id

/-- The call is on its way with this id, or it has ended as it may. -/
def Follows (number : Text → JsNumber) (orderId : Text) : Phase → Prop
  | .idle => True
  | .updating given id _ => given = orderId ∧ id = number orderId ∧ id.isNaN = false
  | .updated given _ _ | .reading given => given = orderId
  | .returned response => ∃ id, number orderId = .integer id ∧ response.id = decimal id
  | .threw failure => failure = .orderNotFound orderId

/-- What a call that is over may have come to. -/
def Ended (number : Text → JsNumber) (orderId : Text) : Phase → Prop
  | .returned response => ∃ id, number orderId = .integer id ∧ response.id = decimal id
  | .threw failure => failure = .orderNotFound orderId
  | _ => True

theorem Follows.ended {orderId : Text} {phase : Phase} (hfollows : Follows number orderId phase) :
    Ended number orderId phase := by
  cases phase with
  | returned response => exact hfollows
  | threw failure => exact hfollows
  | _ => trivial

section Updates

variable {state after : State} {call other : Call} {orderId : Text} {action : UpdateStatus.Action}

theorem follows_goto {phase : Phase} (hfollows : Follows number orderId (state.calls call))
    (hphase : other = call → Follows number orderId phase) :
    Follows number orderId ((state.goto other phase).calls call) := by
  change Follows number orderId (Function.update state.calls other phase call)
  by_cases heq : call = other
  · subst heq
    rw [Function.update_self]
    exact hphase rfl
  · rwa [Function.update_of_ne heq]

theorem find_spec (hkeyed : WellKeyed state.orders) {value : Int} {id : OrderId} {order : Order}
    (hfind : state.find value = some (id, order)) :
    (id : Int) = value ∧ order.id = id := by
  unfold State.find at hfind
  split at hfind
  case isFalse => cases hfind
  rename_i hnonneg
  obtain ⟨found, hstored, heq⟩ := Option.map_eq_some_iff.mp hfind
  cases heq
  exact ⟨Int.toNat_of_nonneg hnonneg, hkeyed _ _ hstored⟩

theorem WellKeyed.update {orders : OrderId → Option Order} (hkeyed : WellKeyed orders)
    {id : OrderId} {order : Order} (horder : order.id = id) :
    WellKeyed (Function.update orders id (some order)) := by
  intro other found hfound
  by_cases heq : other = id
  · subst heq
    rw [Function.update_self] at hfound
    cases hfound
    exact horder
  · rw [Function.update_of_ne heq] at hfound
    exact hkeyed other found hfound

theorem toInt4_ne_none (hid : NaNOrId (number orderId)) (hnan : (number orderId).isNaN = false) :
    (number orderId).toInt4 ≠ none := by
  obtain hnan' | ⟨value, hvalue⟩ := hid
  · rw [hnan] at hnan'
    cases hnan'
  · rw [hvalue]
    exact nofun

structure Inv (number : Text → JsNumber) (call : Call) (orderId : Text) (state : State) : Prop where
  keyed : WellKeyed state.orders
  follows : Follows number orderId (state.calls call)

theorem Inv.goto {phase : Phase} (hinv : Inv number call orderId state)
    (hphase : other = call → Follows number orderId phase) :
    Inv number call orderId (state.goto other phase) :=
  ⟨hinv.keyed, follows_goto hinv.follows hphase⟩

/-- One step of any call. -/
theorem Inv.step (hid : NaNOrId (number orderId)) (hinv : Inv number call orderId state)
    (hok : GivenId call orderId state action)
    (hstep : UpdateStatus.step number state action = some after) :
    Inv number call orderId after := by
  cases action with
  | updateStatus other given status =>
      simp only [UpdateStatus.step, UpdateStatus.updateStatus] at hstep
      split at hstep
      case h_2 => cases hstep
      split at hstep
      · cases hstep
        exact hinv.goto fun hcall => congrArg _ (hok hcall)
      · rename_i hnan
        cases hstep
        refine hinv.goto fun hcall => ?_
        have hgiven := hok hcall
        subst hgiven
        exact ⟨rfl, rfl, Bool.eq_false_of_not_eq_true hnan⟩
  | update other =>
      simp only [UpdateStatus.step, UpdateStatus.update] at hstep
      split at hstep
      case h_2 => cases hstep
      rename_i given id status hphase
      have hgiven : other = call → given = orderId ∧ id = number orderId ∧ id.isNaN = false := by
        rintro rfl
        have hfollows := hinv.follows
        rwa [hphase] at hfollows
      split at hstep
      · rename_i hnone
        cases hstep
        refine hinv.goto fun hcall => ?_
        obtain ⟨-, rfl, hnan⟩ := hgiven hcall
        exact absurd hnone (toInt4_ne_none hid hnan)
      · split at hstep
        · cases hstep
          exact hinv.goto fun hcall => congrArg _ (hgiven hcall).1
        · rename_i found order hfind
          cases hstep
          obtain ⟨-, hkey⟩ := find_spec hinv.keyed hfind
          exact ⟨hinv.keyed.update hkey, follows_goto hinv.follows fun hcall => (hgiven hcall).1⟩
  | reply other =>
      simp only [UpdateStatus.step, UpdateStatus.reply] at hstep
      split at hstep
      case h_2 => cases hstep
      rename_i given id status hphase
      cases hstep
      refine ⟨hinv.keyed, follows_goto hinv.follows ?_⟩
      rintro rfl
      have hfollows := hinv.follows
      rwa [hphase] at hfollows
  | findOne other =>
      simp only [UpdateStatus.step, UpdateStatus.findOne] at hstep
      split at hstep
      case h_2 => cases hstep
      rename_i given hphase
      have hgiven : other = call → given = orderId := by
        rintro rfl
        have hfollows := hinv.follows
        rwa [hphase] at hfollows
      split at hstep
      · cases hstep
        exact hinv.goto fun hcall => congrArg _ (hgiven hcall)
      rename_i hnan
      split at hstep
      · rename_i hnone
        cases hstep
        refine hinv.goto fun hcall => ?_
        have heq := hgiven hcall
        subst heq
        exact absurd hnone (toInt4_ne_none hid (Bool.eq_false_of_not_eq_true hnan))
      · rename_i value hvalue
        split at hstep
        · cases hstep
          exact hinv.goto fun hcall => congrArg _ (hgiven hcall)
        · rename_i found order hfind
          cases hstep
          refine hinv.goto fun hcall => ?_
          have heq := hgiven hcall
          subst heq
          obtain ⟨hvalue', hkey⟩ := find_spec hinv.keyed hfind
          refine ⟨value, (JsNumber.toInt4_eq_some.mp hvalue).1, ?_⟩
          rw [← hvalue', ← hkey]
          rfl
  | fail other => exact absurd hok id
  | listen action =>
      simp only [UpdateStatus.step, UpdateStatus.listen] at hstep
      split at hstep
      · cases hstep
      · obtain ⟨events, -, rfl⟩ := Option.map_eq_some_iff.mp hstep
        exact ⟨hinv.keyed, hinv.follows⟩

theorem updateStatus_settles_iff (number : Text → JsNumber) (call : Call) (orderId : Text) :
    (∀ orders state, WellKeyed orders →
      Reach (UpdateStatus.step number) (GivenId call orderId) (.init orders) state →
      Ended number orderId (state.calls call)) ↔ NaNOrId (number orderId) := by
  constructor
  · intro hended
    by_contra hid
    have hnan : (number orderId).isNaN = false :=
      Bool.eq_false_of_not_eq_true fun hnan => hid (.inl hnan)
    have hnone : (number orderId).toInt4 = none :=
      Option.eq_none_iff_forall_ne_some.mpr fun value hvalue => hid (.inr ⟨value, hvalue⟩)
    -- the call runs by itself, and its UPDATE fails
    let asked : State :=
      (State.init fun _ => none).goto call (.updating orderId (number orderId) "paid")
    have hasked : UpdateStatus.step number (.init fun _ => none)
        (.updateStatus call orderId "paid") =
        some asked := by
      simp [asked, UpdateStatus.step, UpdateStatus.updateStatus, State.init, hnan]
    have hfailed : UpdateStatus.step number asked (.update call) =
        some (asked.goto call (.threw .internal)) := by
      simp [asked, UpdateStatus.step, UpdateStatus.update, State.goto, hnone]
    have hgiven : GivenId call orderId asked (.update call) := trivial
    have hthrew := hended (fun _ => none) _ (by simp [WellKeyed])
      ((Reach.refl.tail (fun _ => rfl) hasked).tail hgiven hfailed)
    simp [State.goto, Ended] at hthrew
  · intro hid orders state hkeyed hreach
    have hinv : Inv number call orderId state :=
      hreach.invariant (Inv number call orderId) ⟨hkeyed, by trivial⟩
        fun _ _ _ _ hinv hok hstep => hinv.step hid hok hstep
    exact hinv.follows.ended

end Updates

/-! ### All lookups -/

/-- When each lookup ends in what was meant or in what says that it is not there. -/
theorem lookups_settle_iff {Digest : Type} (number : Text → JsNumber) (products : ProductTable)
    (store : Store Digest) (database : Database) (actor : Actor) :
    (∀ productId, Settles (fun response => ∃ product ∈ products.rows,
          number productId = .integer product.id ∧ response = Products.toResponse product)
        (.productNotFound productId) (Products.findOne number products productId) ↔
      NaNOrId (number productId)) ∧
    (∀ productId, Settles (fun card => ∃ id, number productId = .integer id ∧
          IsCardOf number store id card)
        (.productNotFound productId) (getCard number store productId) ↔
      CardReadable store (number productId)) ∧
    (∀ orderId, Settles (fun response => ∃ order ∈ database.orders,
          number orderId = .integer order.id ∧ Granted database actor order ∧
          response = Orders.toResponse order)
        (.orderNotFound orderId) (findOneFor number database orderId actor.id) ↔
      NoIntegerOrId (number orderId)) ∧
    (∀ orderId, Settles (fun _ => Meant database actor (number orderId)) (.orderNotFound orderId)
        (assertCanView number database orderId actor.id) ↔
      NoIntegerOrId (number orderId)) ∧
    (∀ orderId : JsNumber, (∃ answer, canView number database orderId actor.id = .ok answer ∧
          (answer = true → Meant database actor (number orderId.text))) ↔
      NoIntegerOrId (number orderId.text)) ∧
    (∀ call orderId, (∀ orders state, WellKeyed orders →
          Reach (UpdateStatus.step number) (GivenId call orderId) (.init orders) state →
          Ended number orderId (state.calls call)) ↔
      NaNOrId (number orderId)) ∧
    ∀ denylist principal payload now, principal.userId = actor.id →
      ((∃ result, handleJoin number database denylist (some principal) payload now = .ok result ∧
          (result.ack.joined = true → ∃ orderId : JsNumber,
            toNumber number (payload.bind fun payload => payload.get orderIdKey) = some orderId ∧
            Meant database actor (number orderId.text))) ↔
        JoinFits number denylist principal payload now) ∧
      ∃ result, handleJoin number database denylist none payload now = .ok result ∧
        result.ack.joined = false := by
  refine ⟨findOne_settles_iff products, getCard_settles_iff store,
    findOneFor_settles_iff number database actor, assertCanView_settles_iff number database actor,
    canView_settles_iff number database actor, updateStatus_settles_iff number, ?_⟩
  intro denylist principal payload now hprincipal
  exact ⟨handleJoin_settles_iff number database actor denylist principal hprincipal payload now,
    _, rfl, rfl⟩

/-- The owner reads the order by its id. -/
theorem lookups_settle_own :
    Settles (fun _ => Meant .own ⟨1, rfl⟩ (readDecimal ['8'])) (.orderNotFound ['8'])
      (assertCanView readDecimal .own ['8'] 1) :=
  ((lookups_settle_iff readDecimal Shop.lampStore.catalogue.toProductTable Shop.lampStore .own
    ⟨1, rfl⟩).2.2.2.1 ['8']).mpr fun _ => ⟨8, rfl⟩

/-- `GET /orders/2147483648` is a number, and no id: the query fails. -/
theorem lookup_out_of_range :
    ¬ Settles (fun _ => Meant .own ⟨1, rfl⟩ (readDecimal "2147483648".toList))
      (.orderNotFound "2147483648".toList)
      (assertCanView readDecimal .own "2147483648".toList 1) := by
  have hfails : assertCanView readDecimal .own "2147483648".toList 1 = .error .internal := by decide
  rw [hfails]
  nofun

end Marketplace.Lookups
