import Marketplace.Shop.Shop

/-!
# When product cards are coherent

`create` and `createIdempotent` delete the entries of the products they touch. `checkout` and
`ProductsService.create` delete none, so they leave a wrong entry behind exactly when there was one
for the product that is sold, or for the id that the new product gets.
-/

namespace Marketplace.Shop

open Checkout (JsNumber OrderItem Sale)
open Orders (CreateOrderDto KeyRow)
open Placing (Source amountOf)
open Products (Catalogue)
open Transition

variable {Digest : Type} {number : Text → JsNumber} {requestHash : CreateOrderDto → Digest}
  {store before after : Store Digest} {productId : ProductId} {source : Source}
  {occurredAt now : Nat}

/-- What the cache answers is what the database would. -/
def Coherent (number : Text → JsNumber) (store : Store Digest) : Prop :=
  ∀ productId value, store.cache (cardKey productId) = some value →
    loadCard number store productId = some value

/-- No entry is left behind: there is none for the product that is sold, or for the id that the new
product gets. -/
def Safe (store : Store Digest) : Action → Prop
  | .checkout userId productId quantity _ _ =>
      (checkSale store userId productId quantity).isOk = true →
      store.cache (cardKey productId) = none
  | .createProduct dto =>
      Products.Inserts store.catalogue dto → store.cache (cardKey store.catalogue.nextId) = none
  | _ => True

instance (store : Store Digest) (action : Action) : Decidable (Safe store action) := by
  unfold Safe
  split <;> infer_instance

/-- `getCard` of every id answers what `loadCard` would. -/
theorem coherent_iff : Coherent number store ↔
    ∀ productId, (getCard number store productId).1 = loadCard number store productId := by
  constructor
  · intro hcoherent productId
    unfold getCard
    cases hcache : store.cache (cardKey productId) with
    | some value => exact (hcoherent productId value hcache).symm
    | none =>
        cases hload : loadCard number store productId with
        | none => rfl
        | some fresh => rfl
  · intro hanswers productId value hcache
    have hanswer := hanswers productId
    unfold getCard at hanswer
    rw [hcache] at hanswer
    exact hanswer.symm

theorem cardKey_injective : Function.Injective cardKey := by
  intro left right heq
  exact decimal_injective (List.append_cancel_left heq)

theorem loadCard_congr (hfind : after.catalogue.find productId = before.catalogue.find productId)
    (hitems : after.itemsOf productId = before.itemsOf productId) :
    loadCard number after productId = loadCard number before productId := by
  unfold loadCard
  rw [hfind, hitems]

theorem Coherent.keep (hcoherent : Coherent number before)
    (hkeep : ∀ productId value, after.cache (cardKey productId) = some value →
      before.cache (cardKey productId) = some value ∧
        after.catalogue.find productId = before.catalogue.find productId ∧
        after.itemsOf productId = before.itemsOf productId) : Coherent number after := by
  intro productId value hcache
  obtain ⟨hold, hfind, hitems⟩ := hkeep productId value hcache
  rw [loadCard_congr hfind hitems]
  exact hcoherent productId value hold

/-! ### Orders -/

theorem itemsOf_write (store : Store Digest) (source : Source) (occurredAt now : Nat)
    (productId : ProductId) : (store.write source occurredAt now).itemsOf productId =
      store.itemsOf productId ++
        (source.itemRows store.nextOrderId).filter fun item => item.productId = productId :=
  List.filter_append _ _

theorem productIds_itemRows (source : Source) (orderId : OrderId) :
    (source.itemRows orderId).map OrderItem.productId = productIdsOf source := by
  cases source with
  | requested dto userId cart =>
      unfold productIdsOf Source.itemRows
      rw [List.map_map, List.map_map]
      rfl
  | sold sale customerEmail => rfl

theorem itemsOf_write_of_not_mem (occurredAt now : Nat) (hnot : productId ∉ productIdsOf source) :
    (store.write source occurredAt now).itemsOf productId = store.itemsOf productId := by
  have hnone :
      ((source.itemRows store.nextOrderId).filter fun item => item.productId = productId) = [] := by
    rw [List.filter_eq_nil_iff]
    intro item hitem hid
    rw [← productIds_itemRows source store.nextOrderId, ← of_decide_eq_true hid] at hnot
    exact hnot (List.mem_map_of_mem hitem)
  rw [itemsOf_write, hnone, List.append_nil]

theorem insertOrderWithEvent_spec {dto : CreateOrderDto} {userId : Option UserId}
    (hplaced : insertOrderWithEvent number store dto userId occurredAt now = .ok (source, after)) :
    ∃ cart, priceItems number store.catalogue .empty dto.items = .ok cart ∧
      source = .requested dto userId cart ∧ after = store.write source occurredAt now := by
  unfold insertOrderWithEvent at hplaced
  split at hplaced
  · cases hplaced
  · rename_i cart hcart
    split at hplaced <;> cases hplaced
    exact ⟨cart, hcart, rfl, rfl⟩

/-- The entries of the products of an order are gone. -/
theorem Coherent.write_invalidate (hcoherent : Coherent number store) (source : Source)
    (occurredAt now : Nat) (keys : Text → Option (KeyRow Digest)) :
    Coherent number (invalidateCards { store.write source occurredAt now with keys := keys }
      (productIdsOf source)) := by
  apply hcoherent.keep
  intro productId value hcache
  change (if cardKey productId ∈ (productIdsOf source).map cardKey then none
    else store.cache (cardKey productId)) = some value at hcache
  split at hcache
  · cases hcache
  · rename_i hnot
    have hother : productId ∉ productIdsOf source := fun hmem => hnot (List.mem_map_of_mem hmem)
    exact ⟨hcache, rfl, itemsOf_write_of_not_mem occurredAt now hother⟩

theorem Coherent.create (hcoherent : Coherent number store) (dto : CreateOrderDto)
    (userId : Option UserId) (occurredAt now : Nat) :
    Coherent number (Shop.create number store dto userId occurredAt now).2 := by
  unfold Shop.create
  cases hplaced : insertOrderWithEvent number store dto userId occurredAt now with
  | error failure => exact hcoherent
  | ok placed =>
      obtain ⟨source, after⟩ := placed
      obtain ⟨-, -, -, rfl⟩ := insertOrderWithEvent_spec hplaced
      exact hcoherent.write_invalidate source occurredAt now store.keys

theorem Coherent.createIdempotent [DecidableEq Digest] (hcoherent : Coherent number store)
    (dto : CreateOrderDto) (clientKey : Text) (userId : Option UserId) (occurredAt now : Nat) :
    Coherent number
      (Shop.createIdempotent number requestHash store dto clientKey userId occurredAt now).2 := by
  unfold Shop.createIdempotent
  dsimp only
  split
  · exact hcoherent
  · cases hplaced : insertOrderWithEvent number store dto userId occurredAt now with
    | error failure => exact hcoherent
    | ok placed =>
        obtain ⟨source, after⟩ := placed
        obtain ⟨-, -, -, rfl⟩ := insertOrderWithEvent_spec hplaced
        exact hcoherent.write_invalidate source occurredAt now _

theorem Coherent.getCard (hcoherent : Coherent number store) (productId : ProductId) :
    Coherent number (Shop.getCard number store productId).2 := by
  unfold Shop.getCard
  cases hcache : store.cache (cardKey productId) with
  | some value => exact hcoherent
  | none =>
      cases hload : loadCard number store productId with
      | none => exact hcoherent
      | some fresh =>
          intro other value hother
          change Function.update store.cache (cardKey productId) (some fresh) (cardKey other) =
            some value at hother
          change loadCard number store other = some value
          by_cases heq : other = productId
          · rw [heq, Function.update_self] at hother
            rw [heq, hload, hother]
          · rw [Function.update_of_ne fun hkey => heq (cardKey_injective hkey)] at hother
            exact hcoherent other value hother

/-! ### Checkout and new products -/

/-- What both UPDATEs and the INSERTs have found in order. -/
structure CheckedSale (store : Store Digest) (productId : ProductId) (sale : Sale) : Prop where
  sold : sale.purchase.productId = productId
  product : ∃ product, store.catalogue.find productId = some product
  columns : fitsInt4 sale.purchase.quantity = true ∧ fitsInt4 productId = true ∧
    fitsInt4 (amountOf sale) = true
  serial : store.nextOrderId ≤ 2147483647

theorem checkSale_spec {userId : UserId} {quantity : JsNumber} {sale : Sale}
    {customerEmail : String}
    (hsale : checkSale store userId productId quantity = .ok (sale, customerEmail)) :
    CheckedSale store productId sale := by
  unfold checkSale at hsale
  split at hsale
  · cases hsale
  split at hsale
  case isFalse => cases hsale
  split at hsale
  case isFalse => cases hsale
  rename_i hfits
  split at hsale
  · cases hsale
  rename_i product hproduct
  split at hsale
  case isFalse => cases hsale
  dsimp only at hsale
  split at hsale
  case isFalse => cases hsale
  rename_i hcolumns
  split at hsale
  · cases hsale
  split at hsale
  case isFalse => cases hsale
  split at hsale
  case isFalse => cases hsale
  rename_i hrest
  cases hsale
  obtain ⟨hquantity, hid⟩ := Bool.and_eq_true_iff.mp hfits
  exact ⟨rfl, ⟨product, hproduct⟩, ⟨hquantity, hid, (Bool.and_eq_true_iff.mp hcolumns).1⟩,
    of_decide_eq_true (Bool.and_eq_true_iff.mp hrest).2⟩

theorem find_pay (sale : Sale) (productId : ProductId) : (store.pay sale).catalogue.find productId =
    (store.catalogue.find productId).map
      (Catalogue.reduceStock sale.purchase.productId sale.purchase.quantity) :=
  Catalogue.find_takeStock productId

theorem find_pay_of_ne {sale : Sale} (hne : productId ≠ sale.purchase.productId) :
    (store.pay sale).catalogue.find productId = store.catalogue.find productId := by
  rw [find_pay]
  cases hfind : store.catalogue.find productId with
  | none => rfl
  | some product =>
      have hid := Catalogue.id_of_find hfind
      rw [Option.map_some, Catalogue.reduceStock, if_neg (fun heq => hne (hid.symm.trans heq))]

/-- A sale adds its quantity to what the card counts. -/
theorem loadCard_sold {sale : Sale} {customerEmail : String} {product : Products.Product}
    {value : Option ProductCard}
    (hproduct : store.catalogue.find sale.purchase.productId = some product)
    (hbefore : loadCard number store sale.purchase.productId = some value) :
    loadCard number ((store.pay sale).write (.sold sale customerEmail) occurredAt now)
      sale.purchase.productId ≠ some value := by
  intro hafter
  have hitems : ((store.pay sale).write (.sold sale customerEmail) occurredAt now).itemsOf
      sale.purchase.productId = store.itemsOf sale.purchase.productId ++
        (Source.sold sale customerEmail).itemRows store.nextOrderId := by
    rw [itemsOf_write]
    congr 1
    exact List.filter_cons_of_pos (decide_eq_true rfl)
  have hfind : ((store.pay sale).write (.sold sale customerEmail) occurredAt now).catalogue.find
      sale.purchase.productId = some
        (Catalogue.reduceStock sale.purchase.productId sale.purchase.quantity product) := by
    change (store.pay sale).catalogue.find _ = _
    rw [find_pay, hproduct, Option.map_some]
  unfold loadCard at hbefore hafter
  rw [hproduct] at hbefore
  rw [hfind, hitems] at hafter
  split at hbefore
  case isFalse => cases hbefore
  rename_i hfits
  rw [if_pos hfits] at hafter
  dsimp only at hbefore hafter
  split at hbefore
  case isFalse => cases hbefore
  split at hafter
  case isFalse => cases hafter
  have hcards := Option.some.inj (hafter.trans hbefore.symm)
  have hunits := congrArg ProductCard.unitsSold (Option.some.inj hcards)
  simp only [cardOf, List.map_append, List.sum_append] at hunits
  have hpositive := sale.purchase.positive
  have hsold : (((Source.sold sale customerEmail).itemRows store.nextOrderId).map
      OrderItem.quantity).sum = sale.purchase.quantity := Int.add_zero _
  omega

theorem Coherent.checkout (hcoherent : Coherent number store) (userId : UserId)
    (productId : ProductId) (quantity : JsNumber) (occurredAt now : Nat) :
    Coherent number (Shop.checkout store userId productId quantity occurredAt now).2 ↔
      Safe store (.checkout userId productId quantity occurredAt now) := by
  unfold Shop.checkout Safe
  cases hsale : checkSale store userId productId quantity with
  | error error =>
      apply iff_of_true hcoherent
      intro hsold
      rw [hsale] at hsold
      cases hsold
  | ok sold =>
      obtain ⟨sale, customerEmail⟩ := sold
      obtain ⟨rfl, ⟨product, hproduct⟩, -⟩ := checkSale_spec hsale
      constructor
      · intro hafter _
        cases hcache : store.cache (cardKey sale.purchase.productId) with
        | none => rfl
        | some value =>
            exact absurd (hafter _ value hcache)
              (loadCard_sold hproduct (hcoherent _ value hcache))
      · intro hsafe
        apply hcoherent.keep
        intro other value hcache
        have hne : other ≠ sale.purchase.productId := by
          rintro rfl
          have hnone := hsafe (by rw [hsale]; rfl)
          cases hnone.symm.trans hcache
        refine ⟨hcache, find_pay_of_ne hne, ?_⟩
        exact itemsOf_write_of_not_mem occurredAt now fun hmem => hne (List.mem_singleton.mp hmem)

/-- A product that is there is not absent. -/
theorem loadCard_ne_absent {product : Products.Product}
    (hproduct : store.catalogue.find productId = some product) :
    loadCard number store productId ≠ some none := by
  unfold loadCard
  rw [hproduct]
  split
  · dsimp only
    split <;> nofun
  · nofun

theorem Coherent.createProduct (hcoherent : Coherent number store)
    (dto : Products.CreateProductDto) :
    Coherent number (Shop.createProduct store dto) ↔ Safe store (.createProduct dto) := by
  unfold Shop.createProduct Safe Products.create
  split
  · rename_i hinserts
    constructor
    · intro hafter _
      cases hcache : store.cache (cardKey store.catalogue.nextId) with
      | none => rfl
      | some value =>
          have hbefore := hcoherent _ value hcache
          have hfits : fitsInt4 store.catalogue.nextId = true := by
            have hroom := hinserts.2.2.1
            simp only [fitsInt4, Bool.and_eq_true, decide_eq_true_eq]
            omega
          rw [loadCard, if_pos hfits, Catalogue.find_nextId] at hbefore
          cases hbefore
          have hfound := store.catalogue.find_insert_self dto hinserts.2.2.1
          exact absurd (hafter _ none hcache) (loadCard_ne_absent hfound)
    · intro hsafe
      apply hcoherent.keep
      intro other value hcache
      have hne : other ≠ store.catalogue.nextId := by
        rintro rfl
        cases (hsafe hinserts).symm.trans hcache
      exact ⟨hcache, store.catalogue.find_insert_of_ne dto hinserts.2.2.1 hne, rfl⟩
  · rename_i hrefused
    refine iff_of_true ?_ fun hinserts => absurd hinserts hrefused
    split
    · exact hcoherent.keep fun _ _ hcache => ⟨hcache, rfl, rfl⟩
    · exact hcoherent

/-! ### Every run -/

/-- A step from a coherent store keeps it coherent exactly when it is safe. -/
theorem Coherent.step_iff [DecidableEq Digest] (hcoherent : Coherent number store) {action : Action}
    (hstep : step number requestHash store action = some after) :
    Coherent number after ↔ Safe store action := by
  cases action with
  | create dto userId occurredAt now =>
      cases hstep
      exact iff_of_true (hcoherent.create dto userId occurredAt now) trivial
  | createIdempotent dto clientKey userId occurredAt now =>
      cases hstep
      exact iff_of_true (hcoherent.createIdempotent dto clientKey userId occurredAt now) trivial
  | checkout userId productId quantity occurredAt now =>
      cases hstep
      exact hcoherent.checkout userId productId quantity occurredAt now
  | createProduct dto =>
      cases hstep
      exact hcoherent.createProduct dto
  | getCard productId =>
      cases hstep
      exact iff_of_true (hcoherent.getCard productId) trivial
  | expire key =>
      cases hstep
      refine iff_of_true ?_ trivial
      apply hcoherent.keep
      intro productId value hcache
      change Function.update store.cache key none (cardKey productId) = some value at hcache
      by_cases heq : cardKey productId = key
      · rw [heq, Function.update_self] at hcache
        cases hcache
      · rw [Function.update_of_ne heq] at hcache
        exact ⟨hcache, rfl, rfl⟩
  | fail orderIds productIds =>
      cases hstep
      refine iff_of_true ?_ trivial
      exact hcoherent.keep fun _ _ hcache => ⟨hcache, rfl, rfl⟩

/-- In a run of safe steps from an empty cache every card is the one of the database, and the first
step that is not safe leaves a card behind that is not. -/
theorem productCards_coherent [DecidableEq Digest] (number : Text → JsNumber)
    (requestHash : CreateOrderDto → Digest) {start store : Store Digest}
    (hcold : start.cache = fun _ => none)
    (hreach : Reach (step number requestHash) Safe start store) :
    (∀ productId, (getCard number store productId).1 = loadCard number store productId) ∧
    ∀ action after, step number requestHash store action = some after →
      ((∀ productId, (getCard number after productId).1 = loadCard number after productId) ↔
        Safe store action) := by
  have hcoherent : Coherent number store := by
    apply Reach.invariant (Coherent number) _ _ hreach
    · intro productId value hcache
      rw [hcold] at hcache
      cases hcache
    · intro state action next _ hstate hsafe hstep
      exact (hstate.step_iff hstep).mpr hsafe
  refine ⟨coherent_iff.mp hcoherent, fun action after hstep => ?_⟩
  rw [← coherent_iff]
  exact hcoherent.step_iff hstep

/-- A lamp, and a buyer who can pay for it. -/
def lampStore : Store CreateOrderDto where
  users := fun userId => if userId = 7 then some ⟨"ada@example.com", 1000⟩ else none
  catalogue :=
    { rows := [⟨3, "Lamp", 100, 5, "UAH"⟩]
      sorted := List.pairwise_singleton _ _
      serial := by decide
      nextId := 4
      positive := by decide
      fresh := by decide }
  orders := []
  orderItems := []
  outbox := []
  keys := fun _ => none
  nextOrderId := 1
  cache := fun _ => none

theorem productCards_coherent_lamp :
    ∃ store, Reach (step readDecimal fun dto => dto) Safe lampStore store ∧
      store.orders.map Placing.OrderRow.totalCents = [100, 200] ∧
      (getCard readDecimal store 3).1 = loadCard readDecimal store 3 := by
  obtain ⟨store, hreach, hcheck⟩ : ∃ store,
      Reach (step readDecimal fun dto => dto) Safe lampStore store ∧
      decide (store.orders.map Placing.OrderRow.totalCents = [100, 200]) = true :=
    exists_reach_of_runWithin [.checkout 7 3 (.integer 1) 0 0, .getCard 3,
      .create ⟨"bob@example.com", [⟨['3'], 2⟩]⟩ none 0 0, .getCard 3] (by decide +kernel)
  exact ⟨store, hreach, of_decide_eq_true hcheck,
    (productCards_coherent readDecimal (fun dto => dto) rfl hreach).1 3⟩

/-- A card that is read before a sale stays, and so does the absence of a product that is
created. -/
theorem productCards_stale :
    (∃ store, Reachable (step readDecimal fun dto => dto) lampStore store ∧
      (getCard readDecimal store 3).1 ≠ loadCard readDecimal store 3) ∧
    ∃ store, Reachable (step readDecimal fun dto => dto) lampStore store ∧
      (getCard readDecimal store 4).1 ≠ loadCard readDecimal store 4 := by
  constructor
  · obtain ⟨store, hreach, hcheck⟩ : ∃ store,
        Reachable (step readDecimal fun dto => dto) lampStore store ∧
          decide ((getCard readDecimal store 3).1 ≠ loadCard readDecimal store 3) = true :=
      exists_reach_of_runWithin [.getCard 3, .checkout 7 3 (.integer 1) 0 0] (by decide +kernel)
    exact ⟨store, hreach, of_decide_eq_true hcheck⟩
  · obtain ⟨store, hreach, hcheck⟩ : ∃ store,
        Reachable (step readDecimal fun dto => dto) lampStore store ∧
          decide ((getCard readDecimal store 4).1 ≠ loadCard readDecimal store 4) = true :=
      exists_reach_of_runWithin [.getCard 4, .createProduct ⟨"Book", 50, 1, none⟩]
        (by decide +kernel)
    exact ⟨store, hreach, of_decide_eq_true hcheck⟩

end Marketplace.Shop
