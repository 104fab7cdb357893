import Marketplace.Shop.Program

/-!
# A call that throws has changed nothing

Everything that can fail after the COMMIT of `create`, `createIdempotent` and `checkout` is caught,
and the replay only reads. What a call has committed when it returns is what the shop does in one
go.
-/

namespace Marketplace.Shop.Program

open Atomic EStateM
open Checkout (CheckoutError JsNumber Sale)
open Orders (Cart CreateOrderDto Failure KeyRow OrderItemDto OrderResponse Request)
open Placing (Source amountOf)

variable {Digest Thrown Value : Type} {number : Text → JsNumber} {before after : World Digest}

/-- The same rows in every table; the serial and the cache may differ. -/
structure SameRows (before after : Tables Digest) : Prop where
  users : after.users = before.users
  catalogue : after.catalogue = before.catalogue
  orders : after.orders = before.orders
  orderItems : after.orderItems = before.orderItems
  outbox : after.outbox = before.outbox
  keys : after.keys = before.keys
  jobs : after.jobs = before.jobs

theorem SameRows.refl (tables : Tables Digest) : SameRows tables tables :=
  ⟨rfl, rfl, rfl, rfl, rfl, rfl, rfl⟩

theorem SameRows.trans {first second third : Tables Digest} (hleft : SameRows first second)
    (hright : SameRows second third) : SameRows first third where
  users := hright.users.trans hleft.users
  catalogue := hright.catalogue.trans hleft.catalogue
  orders := hright.orders.trans hleft.orders
  orderItems := hright.orderItems.trans hleft.orderItems
  outbox := hright.outbox.trans hleft.outbox
  keys := hright.keys.trans hleft.keys
  jobs := hright.jobs.trans hleft.jobs

theorem same_refl (world : World Digest) : onState SameRows world world := SameRows.refl _

theorem same_trans (first second third : World Digest) (hleft : onState SameRows first second)
    (hright : onState SameRows second third) : onState SameRows first third :=
  SameRows.trans hleft hright

theorem sameRows_rollback (before after : World Digest) :
    onState SameRows before (rollback before after) :=
  ⟨rfl, rfl, rfl, rfl, rfl, rfl, rfl⟩

/-! ### Failures -/

theorem allOrNothing_inTransaction {failure : Thrown} {body : Prog Digest Thrown Value} :
    AllOrNothing (onState SameRows) (inTransaction failure body) :=
  allOrNothing_transaction sameRows_rollback

theorem keeps_del (key : Text) : Keeps (onState SameRows) (del key : Prog Digest Failure Unit) := by
  apply Keeps.tryCatch same_trans
  · apply keeps_statement SameRows.refl
    intro tables value next heffect
    cases heffect
    exact ⟨rfl, rfl, rfl, rfl, rfl, rfl, rfl⟩
  · exact fun _ => keeps_pure same_refl ()

theorem returns_del (key : Text) : Returns (del key : Prog Digest Failure Unit) :=
  returns_tryCatch fun _ => returns_pure ()

theorem returns_invalidateCards (cards : Bool) (source : Source) :
    Returns (invalidateCards cards source : Prog Digest Failure Unit) := by
  unfold invalidateCards
  split
  · induction (productIdsOf source).dedup with
    | nil => exact returns_pure ()
    | cons id rest ih => exact (returns_del _).bind fun _ => ih
  · exact returns_pure ()

theorem keeps_invalidateCards (cards : Bool) (source : Source) :
    Keeps (onState SameRows) (invalidateCards cards source : Prog Digest Failure Unit) := by
  unfold invalidateCards
  split
  · induction (productIdsOf source).dedup with
    | nil => exact keeps_pure same_refl ()
    | cons id rest ih => exact (keeps_del _).bind same_trans fun _ => ih
  · exact keeps_pure same_refl ()

/-- A query. -/
theorem keeps_query {read : Tables Digest → Value} : Keeps (onState SameRows)
    (statement .internal fun tables => .ok (read tables, tables) : Prog Digest Failure Value) := by
  apply keeps_statement SameRows.refl
  intro tables value next heffect
  cases heffect
  exact .refl _

theorem keeps_replay [DecidableEq Digest] (requestHash : Digest)
    (existing : Option (KeyRow Digest)) :
    Keeps (onState SameRows) (replay requestHash existing) := by
  cases existing with
  | none => exact keeps_throw same_refl _
  | some existing =>
      by_cases hhash : existing.requestHash = requestHash
      · cases hid : existing.orderId with
        | none =>
            simp only [replay, hhash, ne_eq, not_true_eq_false, if_false, hid]
            exact keeps_throw same_refl _
        | some id =>
            simp only [replay, hhash, ne_eq, not_true_eq_false, if_false, hid]
            apply keeps_query.bind same_trans
            intro order
            cases order with
            | none => exact keeps_throw same_refl _
            | some order => exact keeps_pure same_refl _
      · simp only [replay, hhash, ne_eq, not_false_eq_true, if_true]
        exact keeps_throw same_refl _

/-! ### What the statements do when they succeed -/

theorem inTransaction_ok {failure : Thrown} {body : Prog Digest Thrown Value} {value : Value}
    (hok : inTransaction failure body before = .ok value after) : ∃ first last,
    body first = .ok value last ∧ first.state = before.state ∧ after.state = last.state := by
  rw [inTransaction, transaction_eq_ok] at hok
  obtain ⟨_, first, hbegin, hrest⟩ := bind_eq_ok.mp hok
  obtain ⟨result, last, hbody, hrest⟩ := bind_eq_ok.mp hrest
  obtain ⟨_, final, hcommit, hpure⟩ := bind_eq_ok.mp hrest
  obtain ⟨rfl, rfl⟩ := pure_eq_ok.mp hpure
  refine ⟨first, last, hbody, ?_, ?_⟩
  · exact (Prod.mk.inj (Except.ok.inj (statement_ok hbegin))).2.symm
  · exact (Prod.mk.inj (Except.ok.inj (statement_ok hcommit))).2.symm

theorem priceItem_ok {cart next : Cart} {item : OrderItemDto}
    (hok : priceItem number cart item before = .ok next after) :
    Shop.priceItem number before.state.catalogue cart item = .ok next ∧
      after.state = before.state := by
  unfold priceItem at hok
  split at hok
  · exact absurd hok throw_ne_ok
  · have heffect := statement_ok hok
    split at heffect
    · rename_i turned hturn
      obtain ⟨hnext, hstate⟩ := Prod.mk.inj (Except.ok.inj heffect)
      exact ⟨hnext ▸ hturn, hstate.symm⟩
    · cases heffect

theorem priceItems_ok {cart final : Cart} {items : List OrderItemDto}
    (hok : priceItems number cart items before = .ok final after) :
    Shop.priceItems number before.state.catalogue cart items = .ok final ∧
      after.state = before.state := by
  induction items generalizing cart before with
  | nil =>
      obtain ⟨rfl, rfl⟩ := pure_eq_ok.mp hok
      exact ⟨rfl, rfl⟩
  | cons item rest ih =>
      obtain ⟨next, middle, hturn, hrest⟩ := bind_eq_ok.mp hok
      obtain ⟨hturn, hmiddle⟩ := priceItem_ok hturn
      obtain ⟨hrest, hafter⟩ := ih hrest
      refine ⟨?_, hafter.trans hmiddle⟩
      rw [hmiddle] at hrest
      simpa only [Shop.priceItems, hturn] using hrest

theorem insertOrder_ok {failure : Thrown} {source : Source} {id : OrderId}
    (hok : insertOrder failure source before = .ok id after) :
    id = before.state.nextOrderId ∧ before.state.nextOrderId ≤ 2147483647 ∧
    fitsInt4 (source.orderRow id).totalCents = true ∧
    before.state.hasUser (source.orderRow id).userId = true ∧
    after.state = { before.state with
      orders := before.state.orders ++ [source.orderRow id]
      nextOrderId := before.state.nextOrderId + 1 } := by
  have heffect := statement_ok hok
  dsimp only at heffect
  split at heffect
  · rename_i hchecks
    obtain ⟨hid, hstate⟩ := Prod.mk.inj (Except.ok.inj heffect)
    subst hid
    simp only [Bool.and_eq_true, decide_eq_true_eq] at hchecks
    exact ⟨rfl, hchecks.2, hchecks.1.1, hchecks.1.2, hstate.symm⟩
  · cases heffect

theorem insertItems_ok {failure : Thrown} {source : Source} {id : OrderId}
    (hok : insertItems failure source id before = .ok () after) :
    (source.itemRows id).all (fun item => fitsInt4 item.quantity &&
      fitsInt4 item.priceAtPurchaseCents) = true ∧
    after.state =
      { before.state with orderItems := before.state.orderItems ++ source.itemRows id } := by
  have heffect := statement_ok hok
  split at heffect
  · rename_i hfits
    exact ⟨hfits, (Prod.mk.inj (Except.ok.inj heffect)).2.symm⟩
  · cases heffect

theorem enqueue_ok {failure : Thrown} {source : Source} {id : OrderId} {occurredAt now : Nat}
    (hok : enqueue failure source id occurredAt now before = .ok () after) :
    after.state = { before.state with
      outbox := before.state.outbox ++
        [enqueueOrderPlaced (source.eventData id) occurredAt now] } :=
  (Prod.mk.inj (Except.ok.inj (statement_ok hok))).2.symm

/-- The statements of `insertOrderWithEvent` do together what it does in the shop. -/
theorem insertOrderWithEvent_ok {dto : CreateOrderDto} {userId : Option UserId} {source : Source}
    {id : OrderId} {occurredAt now : Nat}
    (hok : insertOrderWithEvent number dto userId occurredAt now before = .ok (source, id) after) :
    id = before.state.nextOrderId ∧
    after.state = { before.state with toStore := before.state.write source occurredAt now } ∧
    ∀ store : Store Digest, store.catalogue = before.state.catalogue →
      store.users = before.state.users →
      store.nextOrderId = before.state.nextOrderId →
        Shop.insertOrderWithEvent number store dto userId occurredAt now =
          .ok (source, store.write source occurredAt now) := by
  unfold insertOrderWithEvent at hok
  obtain ⟨cart, priced, hprice, hok⟩ := bind_eq_ok.mp hok
  obtain ⟨saved, ordered, horder, hok⟩ := bind_eq_ok.mp hok
  obtain ⟨_, filled, hitems, hok⟩ := bind_eq_ok.mp hok
  obtain ⟨_, queued, henqueue, hok⟩ := bind_eq_ok.mp hok
  obtain ⟨hpair, rfl⟩ := pure_eq_ok.mp hok
  obtain ⟨rfl, rfl⟩ := Prod.mk.inj hpair
  obtain ⟨hprice, hpriced⟩ := priceItems_ok hprice
  obtain ⟨hid, hserial, htotal, huser, hordered⟩ := insertOrder_ok horder
  obtain ⟨hfits, hfilled⟩ := insertItems_ok hitems
  have hqueued := enqueue_ok henqueue
  rw [hpriced] at hid hserial huser hordered
  subst hid
  refine ⟨rfl, ?_, ?_⟩
  · rw [hqueued, hfilled, hordered]
    rfl
  intro store hcatalogue husers hnext
  have hcart : cart.fits = true := by
    simp only [Source.itemRows, List.all_map] at hfits
    exact Bool.and_eq_true_iff.mpr ⟨htotal, hfits⟩
  have hknown : store.hasUser userId = true := by
    rw [Store.hasUser, husers]
    exact huser
  have hchecks :
      (cart.fits && store.hasUser userId && decide (store.nextOrderId ≤ 2147483647)) = true := by
    simp only [Bool.and_eq_true, decide_eq_true_eq]
    exact ⟨⟨hcart, hknown⟩, hnext ▸ hserial⟩
  simp only [Shop.insertOrderWithEvent, hcatalogue, hprice, hchecks, if_true]

/-- A replay is known as one by its answer. -/
theorem replayed_of_replay [DecidableEq Digest] {requestHash : Digest}
    {existing : Option (KeyRow Digest)} {answer : OrderResponse × Bool}
    (hok : replay requestHash existing before = .ok answer after) :
    answer.2 = true := by
  cases existing with
  | none => exact absurd hok throw_ne_ok
  | some existing =>
      simp only [replay] at hok
      split at hok
      · exact absurd hok throw_ne_ok
      cases hid : existing.orderId with
      | none =>
          simp only [hid] at hok
          exact absurd hok throw_ne_ok
      | some id =>
          simp only [hid] at hok
          obtain ⟨order, middle, -, hok⟩ := bind_eq_ok.mp hok
          cases order with
          | none => exact absurd hok throw_ne_ok
          | some order => exact congrArg Prod.snd (pure_eq_ok.mp hok).1.symm

/-- The callback has claimed the key and inserted the order, or it has written nothing. -/
theorem claimAndInsert_ok {key : Text} {requestHash : Digest} {dto : CreateOrderDto}
    {userId : Option UserId} {occurredAt now : Nat} {outcome : Outcome Digest}
    (hok : claimAndInsert number key requestHash dto userId occurredAt now before =
      .ok outcome after) :
    (∃ source id, outcome = .created source id ∧ before.state.keys key = none ∧
      id = before.state.nextOrderId ∧
      Shop.insertOrderWithEvent number before.state.toStore dto userId occurredAt now =
        .ok (source, before.state.write source occurredAt now) ∧
      after.state = { before.state with
        toStore := { before.state.write source occurredAt now with
          keys := Function.update before.state.keys key (some ⟨requestHash, some id⟩) } }) ∨
    outcome = .replay (before.state.keys key) ∧ (before.state.keys key).isSome ∧
      after.state = before.state := by
  unfold claimAndInsert at hok
  obtain ⟨claimed, middle, hclaim, hok⟩ := bind_eq_ok.mp hok
  have hclaim := statement_ok hclaim
  cases hkey : before.state.keys key with
  | some existing =>
      rw [hkey] at hclaim
      obtain ⟨rfl, hmiddle⟩ := Prod.mk.inj (Except.ok.inj hclaim)
      right
      obtain ⟨found, last, hselect, hpure⟩ := bind_eq_ok.mp hok
      obtain ⟨rfl, rfl⟩ := pure_eq_ok.mp hpure
      obtain ⟨hfound, hlast⟩ := Prod.mk.inj (Except.ok.inj (statement_ok hselect))
      rw [← hfound, ← hlast, ← hmiddle, hkey]
      exact ⟨rfl, rfl, rfl⟩
  | none =>
      rw [hkey] at hclaim
      obtain ⟨rfl, hmiddle⟩ := Prod.mk.inj (Except.ok.inj hclaim)
      left
      obtain ⟨⟨source, id⟩, last, hinsert, hok⟩ := bind_eq_ok.mp hok
      obtain ⟨_, linked, hlink, hpure⟩ := bind_eq_ok.mp hok
      obtain ⟨rfl, rfl⟩ := pure_eq_ok.mp hpure
      obtain ⟨hid, hlast, hshop⟩ := insertOrderWithEvent_ok hinsert
      rw [← hmiddle] at hid hlast hshop
      have hlinked := (Prod.mk.inj (Except.ok.inj (statement_ok hlink))).2
      refine ⟨source, id, rfl, rfl, hid, hshop _ rfl rfl rfl, ?_⟩
      rw [← hlinked, hlast]
      simp [Store.write, hid]

/-! ### The calls -/

/-- The order has been committed with its items and its event, next to what was there before. -/
structure Committed (before after : Tables Digest) (source : Source) (occurredAt now : Nat) :
    Prop where
  orders : after.orders = before.orders ++ [source.orderRow before.nextOrderId]
  orderItems : after.orderItems = before.orderItems ++ source.itemRows before.nextOrderId
  outbox : after.outbox = before.outbox ++
    [enqueueOrderPlaced (source.eventData before.nextOrderId) occurredAt now]

theorem Committed.congr {tables first last : Tables Digest} {source : Source} {occurredAt now : Nat}
    (hcommitted : Committed tables first source occurredAt now) (hsame : SameRows first last) :
    Committed tables last source occurredAt now where
  orders := hsame.orders.trans hcommitted.orders
  orderItems := hsame.orderItems.trans hcommitted.orderItems
  outbox := hsame.outbox.trans hcommitted.outbox

theorem allOrNothing_create (cards : Bool) (dto : CreateOrderDto) (userId : Option UserId)
    (occurredAt now : Nat) :
    AllOrNothing (onState SameRows)
      (create number cards dto userId occurredAt now : Prog Digest Failure OrderResponse) := by
  apply AllOrNothing.bind same_trans allOrNothing_inTransaction
  intro state placed middle _
  left
  exact (returns_invalidateCards cards placed.1).bind fun _ => returns_pure _

/-- What `create` does is what it does in the shop: the order is the one that was asked for. -/
theorem create_ok {cards : Bool} {dto : CreateOrderDto} {userId : Option UserId}
    {occurredAt now : Nat} {response : OrderResponse}
    (hok : create number cards dto userId occurredAt now before = .ok response after) : ∃ source,
    Shop.insertOrderWithEvent number before.state.toStore dto userId occurredAt now =
        .ok (source, before.state.write source occurredAt now) ∧
      response = responseOf (source.orderRow before.state.nextOrderId)
        (source.itemRows before.state.nextOrderId) ∧
      Committed before.state after.state source occurredAt now := by
  obtain ⟨⟨source, id⟩, middle, htransaction, hok⟩ := bind_eq_ok.mp hok
  obtain ⟨_, last, hinvalidate, hpure⟩ := bind_eq_ok.mp hok
  obtain ⟨rfl, rfl⟩ := pure_eq_ok.mp hpure
  obtain ⟨first, placed, hinsert, hfirst, hmiddle⟩ := inTransaction_ok htransaction
  obtain ⟨rfl, hplaced, hshop⟩ := insertOrderWithEvent_ok hinsert
  rw [hfirst] at hplaced hshop
  have hsame := (keeps_invalidateCards cards source).returned _ _ _ hinvalidate
  rw [onState, hmiddle, hplaced] at hsame
  exact ⟨source, hshop _ rfl rfl rfl, by rw [hfirst], Committed.congr ⟨rfl, rfl, rfl⟩ hsame⟩

section Idempotent

variable [DecidableEq Digest] {requestHash : CreateOrderDto → Digest}

theorem allOrNothing_createIdempotent (cards : Bool) (dto : CreateOrderDto) (clientKey : Text)
    (userId : Option UserId) (occurredAt now : Nat) : AllOrNothing (onState SameRows)
      (createIdempotent number requestHash cards dto clientKey userId occurredAt now) := by
  apply AllOrNothing.bind same_trans allOrNothing_inTransaction
  intro state outcome middle hrun
  obtain ⟨first, last, hclaim, hfirst, hmiddle⟩ := inTransaction_ok hrun
  cases outcome with
  | created source id =>
      left
      exact (returns_invalidateCards cards source).bind fun _ => returns_pure _
  | replay existing =>
      right
      refine ⟨?_, (keeps_replay _ existing).allOrNothing⟩
      rcases claimAndInsert_ok hclaim with ⟨source, id, houtcome, -⟩ | ⟨-, -, hlast⟩
      · cases houtcome
      · rw [onState, hmiddle, hlast, hfirst]
        exact .refl _

/-- What a first call of `createIdempotent` does is what it does in the shop. -/
theorem createIdempotent_ok {cards : Bool} {dto : CreateOrderDto} {clientKey : Text}
    {userId : Option UserId} {occurredAt now : Nat} {response : OrderResponse}
    (hok : createIdempotent number requestHash cards dto clientKey userId occurredAt now before =
      .ok (response, false) after) : ∃ source,
    Shop.insertOrderWithEvent number before.state.toStore dto userId occurredAt now =
        .ok (source, before.state.write source occurredAt now) ∧
      response = responseOf (source.orderRow before.state.nextOrderId)
        (source.itemRows before.state.nextOrderId) ∧
      Committed before.state after.state source occurredAt now ∧
      after.state.keys (Request.idempotencyKey ⟨dto, clientKey, userId⟩) =
        some ⟨requestHash dto, some before.state.nextOrderId⟩ := by
  obtain ⟨outcome, middle, htransaction, hok⟩ := bind_eq_ok.mp hok
  obtain ⟨first, placed, hclaim, hfirst, hmiddle⟩ := inTransaction_ok htransaction
  rcases claimAndInsert_ok hclaim with ⟨source, id, rfl, hfree, rfl, hshop, hplaced⟩ | ⟨rfl, -, -⟩
  · obtain ⟨_, last, hinvalidate, hpure⟩ := bind_eq_ok.mp hok
    obtain ⟨hanswer, rfl⟩ := pure_eq_ok.mp hpure
    obtain ⟨rfl, -⟩ := Prod.mk.inj hanswer
    rw [hfirst] at hshop hplaced ⊢
    have hsame := (keeps_invalidateCards cards source).returned _ _ _ hinvalidate
    rw [onState, hmiddle, hplaced] at hsame
    refine ⟨source, hshop, rfl, Committed.congr ⟨rfl, rfl, rfl⟩ hsame, ?_⟩
    rw [hsame.keys]
    exact Function.update_self _ _ _
  · cases replayed_of_replay hok

end Idempotent

theorem takeStock_ok {productId : ProductId} {quantity priceCents : Int}
    (hok : takeStock productId quantity before = .ok priceCents after) :
    (fitsInt4 quantity && fitsInt4 productId) = true ∧ (∃ product,
      before.state.catalogue.find productId = some product ∧ quantity ≤ product.stock ∧
        priceCents = product.priceCents) ∧
    after.state = { before.state with
      catalogue := before.state.catalogue.takeStock productId quantity } := by
  have heffect := statement_ok hok
  split at heffect
  case isFalse => cases heffect
  rename_i hfits
  split at heffect
  · cases heffect
  rename_i product hproduct
  split at heffect
  case isFalse => cases heffect
  rename_i hstock
  obtain ⟨hprice, hstate⟩ := Prod.mk.inj (Except.ok.inj heffect)
  exact ⟨hfits, ⟨product, hproduct, hstock, hprice.symm⟩, hstate.symm⟩

theorem takeBalance_ok {sale : Sale} {customerEmail : String}
    (hok : takeBalance sale before = .ok customerEmail after) :
    (fitsInt4 (amountOf sale) && fitsInt4 sale.purchase.userId) = true ∧ ∃ user,
      before.state.users sale.purchase.userId = some user ∧ amountOf sale ≤ user.balanceCents ∧
      fitsInt4 (user.balanceCents - amountOf sale) = true ∧ customerEmail = user.email ∧
      after.state = { before.state with
        users := Function.update before.state.users sale.purchase.userId
          (some { user with balanceCents := user.balanceCents - amountOf sale }) } := by
  have heffect := statement_ok hok
  split at heffect
  case isFalse => cases heffect
  rename_i hfits
  split at heffect
  · cases heffect
  rename_i user huser
  split at heffect
  case isFalse => cases heffect
  rename_i hbalance
  dsimp only at heffect
  split at heffect
  case isFalse => cases heffect
  rename_i hpaid
  obtain ⟨hemail, hstate⟩ := Prod.mk.inj (Except.ok.inj heffect)
  exact ⟨hfits, user, huser, hbalance, hpaid, hemail.symm, hstate.symm⟩

/-- The statements of `checkout` do together what it does in the shop, and leave a job. -/
theorem sell_ok {userId : UserId} {productId : ProductId} {quantity : Int} {positive : 0 < quantity}
    {occurredAt now : Nat} {id : OrderId}
    (hok : sell userId productId quantity positive occurredAt now before = .ok id after) :
    ∃ sale customerEmail, id = before.state.nextOrderId ∧
      checkSale before.state.toStore userId productId (.integer quantity) =
        .ok (sale, customerEmail) ∧
      after.state =
        { toStore := (before.state.pay sale).write (.sold sale customerEmail) occurredAt now
          jobs := before.state.jobs ++ [id] } := by
  unfold sell at hok
  obtain ⟨priceCents, taken, hstock, hok⟩ := bind_eq_ok.mp hok
  obtain ⟨customerEmail, paid, hbalance, hok⟩ := bind_eq_ok.mp hok
  obtain ⟨saved, ordered, horder, hok⟩ := bind_eq_ok.mp hok
  obtain ⟨_, filled, hitems, hok⟩ := bind_eq_ok.mp hok
  obtain ⟨_, jobbed, hjob, hok⟩ := bind_eq_ok.mp hok
  obtain ⟨_, queued, henqueue, hpure⟩ := bind_eq_ok.mp hok
  obtain ⟨rfl, rfl⟩ := pure_eq_ok.mp hpure
  obtain ⟨hfits, ⟨product, hproduct, hleft, rfl⟩, htaken⟩ := takeStock_ok hstock
  obtain ⟨hcolumns, user, huser, hfunds, hrest, rfl, hpaid⟩ := takeBalance_ok hbalance
  obtain ⟨hid, hserial, -, -, hordered⟩ := insertOrder_ok horder
  obtain ⟨-, hfilled⟩ := insertItems_ok hitems
  have hjobbed := (Prod.mk.inj (Except.ok.inj (statement_ok hjob))).2
  have hqueued := enqueue_ok henqueue
  rw [htaken] at huser hpaid
  rw [hpaid] at hid hserial hordered
  subst hid
  have huser : before.state.users userId = some user := huser
  have hcolumns :
      (fitsInt4 (amountOf ⟨⟨userId, productId, quantity, positive⟩, product.priceCents⟩) &&
        fitsInt4 userId) = true := hcolumns
  have hserial : before.state.nextOrderId ≤ 2147483647 := hserial
  refine ⟨⟨⟨userId, productId, quantity, positive⟩, product.priceCents⟩, user.email, rfl, ?_, ?_⟩
  · have hlast : (fitsInt4 (user.balanceCents - amountOf
        ⟨⟨userId, productId, quantity, positive⟩, product.priceCents⟩) &&
          decide (before.state.nextOrderId ≤ 2147483647)) = true := by
      rw [hrest, Bool.true_and]
      exact decide_eq_true hserial
    simp only [checkSale, positive, dif_pos, hfits, if_true, hproduct, hleft, hcolumns,
      huser, hfunds, hlast]
  · rw [hqueued, ← hjobbed, hfilled, hordered]
    simp [Store.write, Store.pay, huser]

theorem allOrNothing_checkout (userId : UserId) (productId : ProductId) (quantity : JsNumber)
    (occurredAt now : Nat) : AllOrNothing (onState SameRows)
      (checkout userId productId quantity occurredAt now : Prog Digest CheckoutError OrderId) := by
  unfold checkout
  split
  · exact (keeps_throw same_refl _).allOrNothing
  split
  · exact allOrNothing_inTransaction
  · exact (keeps_throw same_refl _).allOrNothing

/-- What `checkout` does is what it does in the shop. -/
theorem checkout_ok {userId : UserId} {productId : ProductId} {quantity : JsNumber}
    {occurredAt now : Nat} {id : OrderId}
    (hok : checkout userId productId quantity occurredAt now before = .ok id after) :
    ∃ sale customerEmail, id = before.state.nextOrderId ∧
      checkSale before.state.toStore userId productId quantity = .ok (sale, customerEmail) ∧
      Shop.checkout before.state.toStore userId productId quantity occurredAt now =
        (.ok id, after.state.toStore) ∧
      Committed before.state after.state (.sold sale customerEmail) occurredAt now ∧
      after.state.jobs = before.state.jobs ++ [id] := by
  unfold checkout at hok
  split at hok
  · exact absurd hok throw_ne_ok
  split at hok
  case isFalse => exact absurd hok throw_ne_ok
  obtain ⟨first, last, hsell, hfirst, hafter⟩ := inTransaction_ok hok
  obtain ⟨sale, customerEmail, rfl, hsale, hlast⟩ := sell_ok hsell
  rw [hfirst] at hsale hlast ⊢
  rw [hafter, hlast]
  refine ⟨sale, customerEmail, rfl, hsale, ?_, ⟨rfl, rfl, rfl⟩, rfl⟩
  simp only [Shop.checkout, hsale]

/-- Wherever the failures are: a call that throws leaves the rows as they were, and a call that
returns a new order has committed all of it, the order being the one that was asked for. -/
theorem calls_allOrNothing [DecidableEq Digest] (number : Text → JsNumber)
    (requestHash : CreateOrderDto → Digest) (cards : Bool) (occurredAt now : Nat)
    (before after : World Digest) :
    (∀ dto userId,
      (∀ failure, create number cards dto userId occurredAt now before = .error failure after →
        SameRows before.state after.state) ∧
      ∀ response, create number cards dto userId occurredAt now before = .ok response after →
        ∃ source, Shop.insertOrderWithEvent number before.state.toStore dto userId occurredAt now =
            .ok (source, before.state.write source occurredAt now) ∧
          response = responseOf (source.orderRow before.state.nextOrderId)
            (source.itemRows before.state.nextOrderId) ∧
          Committed before.state after.state source occurredAt now) ∧
    (∀ dto clientKey userId,
      (∀ failure, createIdempotent number requestHash cards dto clientKey userId occurredAt
        now before =
          .error failure after → SameRows before.state after.state) ∧
      ∀ response, createIdempotent number requestHash cards dto clientKey userId occurredAt
        now before =
          .ok (response, false) after →
        ∃ source, Shop.insertOrderWithEvent number before.state.toStore dto userId occurredAt now =
            .ok (source, before.state.write source occurredAt now) ∧
          response = responseOf (source.orderRow before.state.nextOrderId)
            (source.itemRows before.state.nextOrderId) ∧
          Committed before.state after.state source occurredAt now ∧
          after.state.keys (Request.idempotencyKey ⟨dto, clientKey, userId⟩) =
            some ⟨requestHash dto, some before.state.nextOrderId⟩) ∧
    ∀ userId productId quantity,
      (∀ error, checkout userId productId quantity occurredAt now before = .error error after →
        SameRows before.state after.state) ∧
      ∀ id, checkout userId productId quantity occurredAt now before = .ok id after →
        ∃ sale customerEmail, id = before.state.nextOrderId ∧
          checkSale before.state.toStore userId productId quantity = .ok (sale, customerEmail) ∧
          Shop.checkout before.state.toStore userId productId quantity occurredAt now =
            (.ok id, after.state.toStore) ∧
          Committed before.state after.state (.sold sale customerEmail) occurredAt now ∧
          after.state.jobs = before.state.jobs ++ [id] := by
  refine ⟨fun dto userId => ⟨?_, ?_⟩, fun dto clientKey userId => ⟨?_, ?_⟩,
    fun userId productId quantity => ⟨?_, ?_⟩⟩
  · exact fun failure => allOrNothing_create cards dto userId occurredAt now before failure after
  · exact fun response hok => create_ok hok
  · exact fun failure =>
      allOrNothing_createIdempotent cards dto clientKey userId occurredAt now before failure after
  · exact fun response hok => createIdempotent_ok hok
  · exact fun error => allOrNothing_checkout userId productId quantity occurredAt now before
      error after
  · exact fun id hok => checkout_ok hok

def lampWorld (faults : List Bool) : World CreateOrderDto := ⟨{ lampStore with jobs := [] }, faults⟩

def twoLamps : CreateOrderDto := ⟨"ada@example.com", [⟨['3'], 2⟩]⟩

/-- The INSERT of the event fails. -/
def failingEvent : World CreateOrderDto := lampWorld [false, false, false, false, true]

/-- The card cannot be taken out of Redis. -/
def failingCache : World CreateOrderDto :=
  lampWorld [false, false, false, false, false, false, false, false, true]

theorem calls_allOrNothing_lamp :
    (∃ after, create readDecimal true twoLamps (some 7) 0 0 failingEvent = .error .internal after ∧
      SameRows failingEvent.state after.state) ∧
    ∃ response after source, createIdempotent readDecimal (fun dto => dto) true twoLamps ['k']
      (some 7) 0 0
        failingCache = .ok (response, false) after ∧
      Shop.insertOrderWithEvent readDecimal failingCache.state.toStore twoLamps (some 7) 0 0 =
        .ok (source, failingCache.state.write source 0 0) ∧
      Committed failingCache.state after.state source 0 0 := by
  constructor
  · obtain ⟨after, hrun⟩ := exists_of_outcome_error (show (create readDecimal true twoLamps
      (some 7) 0 0 failingEvent).outcome = .error .internal by decide +kernel)
    have hsame := ((calls_allOrNothing readDecimal (fun dto => dto) true 0 0 failingEvent
      after).1 twoLamps (some 7)).1 .internal hrun
    exact ⟨after, hrun, hsame⟩
  · obtain ⟨after, hrun⟩ := exists_of_outcome_ok (show (createIdempotent readDecimal
      (fun dto => dto) true twoLamps ['k'] (some 7) 0 0 failingCache).outcome =
        .ok (⟨['1'], [(['3'], 2)], 200, "UAH", "created"⟩, false) by decide +kernel)
    obtain ⟨source, hasked, -, hcommitted, -⟩ := ((calls_allOrNothing readDecimal
      (fun dto => dto) true 0 0 failingCache after).2.1 twoLamps ['k'] (some 7)).2 _ hrun
    exact ⟨_, after, source, hrun, hasked, hcommitted⟩

end Marketplace.Shop.Program
