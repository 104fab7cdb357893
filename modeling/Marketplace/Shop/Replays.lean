import Marketplace.Shop.CardNumbers

/-!
# The answer to a repeated request

The first answer of `createIdempotent` is built from the entity in memory, the answer to a
repetition from the rows as they are then. The query of `findOne` has no ORDER BY, so its join may
return the items of the order in any order.
-/

namespace Marketplace.Shop

open Checkout (JsNumber OrderItem)
open Orders (CreateOrderDto Failure KeyRow OrderResponse Request)
open Placing (OrderRow Source)
open Transition

section Operations

variable {Digest : Type} (number : Text → JsNumber) (requestHash : CreateOrderDto → Digest)
  (store : Store Digest) (join : List OrderItem → List OrderItem)

/-- The items of an order, in the order of their INSERTs. -/
def Store.rowsOf (orderId : OrderId) : List OrderItem :=
  store.orderItems.filter fun item => item.orderId = orderId

/-- `findOne`; `join` is the order in which the database returns the rows. -/
def findOneJoined (orderId : OrderId) : Option OrderResponse :=
  (store.orders.find? fun order => order.id = orderId).map fun order =>
    responseOf order (join (store.rowsOf orderId))

def replayJoined [DecidableEq Digest] (dto : CreateOrderDto) (existing : KeyRow Digest) :
    Except Failure (OrderResponse × Bool) :=
  if existing.requestHash ≠ requestHash dto then .error .keyReused
  else
    match existing.orderId with
    | none => .error (.orderNotFound ['n', 'u', 'l', 'l'])
    | some orderId =>
        match findOneJoined store join orderId with
        | none => .error (.orderNotFound (decimal orderId))
        | some order => .ok (order, true)

def createIdempotentJoined [DecidableEq Digest] (dto : CreateOrderDto) (clientKey : Text)
    (userId : Option UserId) (occurredAt now : Nat) :
    Except Failure (OrderResponse × Bool) × Store Digest :=
  match store.keys (Request.idempotencyKey ⟨dto, clientKey, userId⟩) with
  | some existing => (replayJoined requestHash store join dto existing, store)
  | none => createIdempotent number requestHash store dto clientKey userId occurredAt now

/-- The row of an order after `SET status = …`. -/
def setStatus (orderId : OrderId) (status : String) (order : OrderRow) : OrderRow :=
  if order.id = orderId then { order with status := status } else order

/-- The UPDATE of `updateStatus`, and the id of its row. -/
def updateOrder (orderId : Text) (status : String) : Except Failure (OrderId × Store Digest) :=
  if (number orderId).isNaN then .error (.orderNotFound orderId)
  else
    match (number orderId).toInt4 with
    | none => .error .internal
    | some id =>
        match store.orders.find? fun order => (order.id : Int) = id with
        | none => .error (.orderNotFound orderId)
        | some order =>
            .ok (order.id, { store with orders := store.orders.map (setStatus order.id status) })

def updateStatus (orderId : Text) (status : String) : Except Failure OrderResponse × Store Digest :=
  match updateOrder number store orderId status with
  | .error failure => (.error failure, store)
  | .ok (id, after) =>
      match findOneJoined after join id with
      | none => (.error (.orderNotFound orderId), after)
      | some order => (.ok order, after)

end Operations

/-- With the rows in the order of their INSERTs, `createIdempotent` is the one of the shop. -/
theorem createIdempotentJoined_id {Digest : Type} [DecidableEq Digest] (number : Text → JsNumber)
    (requestHash : CreateOrderDto → Digest) (store : Store Digest) :
    createIdempotentJoined number requestHash store id =
      createIdempotent number requestHash store := by
  funext dto clientKey userId occurredAt now
  cases hkey : store.keys (Request.idempotencyKey ⟨dto, clientKey, userId⟩) with
  | some existing =>
      unfold createIdempotentJoined createIdempotent
      dsimp only
      rw [hkey]
      rfl
  | none =>
      unfold createIdempotentJoined
      rw [hkey]

/-- What may happen between a request and its repetition. -/
inductive Operation where
  | shop (action : Action)
  | updateStatus (orderId : Text) (status : String)

/-- The order of a join is nothing to the rows, so it is not a part of the operation. -/
def operate {Digest : Type} [DecidableEq Digest] (number : Text → JsNumber)
    (requestHash : CreateOrderDto → Digest) (store : Store Digest) :
    Operation → Option (Store Digest)
  | .shop action => step number requestHash store action
  | .updateStatus orderId status => some (updateStatus number store id orderId status).2

/-- The status that an operation gives to the order. -/
def Operation.sets (number : Text → JsNumber) (orderId : OrderId) : Operation → Option String
  | .shop _ => none
  | .updateStatus text status =>
      if (number text).toInt4 = some (orderId : Int) then some status else none

/-- The status of the order after the operations: the last one that was set, if there is one. -/
def statusAfter (number : Text → JsNumber) (orderId : OrderId) (status : String)
    (operations : List Operation) : String :=
  operations.foldl (fun status operation => (operation.sets number orderId).getD status) status

/-- What a response shows of the items. -/
def linesOf (items : List OrderItem) : List (Text × Int) :=
  items.map fun item => (decimal item.productId, item.quantity)

variable {Digest : Type} [DecidableEq Digest] {number : Text → JsNumber}
  {requestHash : CreateOrderDto → Digest} {store after later : Store Digest}

/-! ### What an operation does to the rows -/

inductive Effect (store after : Store Digest) : Prop
  | keep (horders : after.orders = store.orders) (hitems : after.orderItems = store.orderItems)
      (hkeys : after.keys = store.keys) (hserial : store.nextOrderId ≤ after.nextOrderId)
  | write (source : Source)
      (horders : after.orders = store.orders ++ [source.orderRow store.nextOrderId])
      (hitems : after.orderItems = store.orderItems ++ source.itemRows store.nextOrderId)
      (hkeys : ∀ key row, store.keys key = some row → after.keys key = some row)
      (hserial : after.nextOrderId = store.nextOrderId + 1)

omit [DecidableEq Digest] in
theorem Effect.refl : Effect store store :=
  .keep rfl rfl rfl (Nat.le_refl _)

theorem step_effect {action : Action}
    (hstep : Shop.step number requestHash store action = some after) :
    Effect store after := by
  cases action with
  | create dto userId occurredAt now =>
      cases hstep
      unfold create
      split
      · exact .refl
      · rename_i source placed hplaced
        obtain ⟨-, -, -, rfl⟩ := insertOrderWithEvent_spec hplaced
        exact .write source rfl rfl (fun _ _ hkey => hkey) rfl
  | createIdempotent dto clientKey userId occurredAt now =>
      cases hstep
      unfold createIdempotent
      dsimp only
      split
      · exact .refl
      · rename_i hfree
        split
        · exact .refl
        · rename_i source placed hplaced
          obtain ⟨-, -, -, rfl⟩ := insertOrderWithEvent_spec hplaced
          refine .write source rfl rfl (fun key row hkey => ?_) rfl
          have hne : key ≠ Request.idempotencyKey ⟨dto, clientKey, userId⟩ := by
            rintro rfl
            rw [hfree] at hkey
            cases hkey
          exact (Function.update_of_ne hne _ _).trans hkey
  | checkout userId productId quantity occurredAt now =>
      cases hstep
      unfold checkout
      split
      · exact .refl
      · rename_i sale customerEmail hsale
        exact .write (.sold sale customerEmail) rfl rfl (fun _ _ hkey => hkey) rfl
  | createProduct dto =>
      cases hstep
      exact .keep rfl rfl rfl (Nat.le_refl _)
  | getCard productId =>
      cases hstep
      unfold getCard
      split
      · exact .refl
      · split
        · exact .refl
        · exact .keep rfl rfl rfl (Nat.le_refl _)
  | expire key =>
      cases hstep
      exact .keep rfl rfl rfl (Nat.le_refl _)
  | fail orderIds productIds =>
      cases hstep
      exact .keep rfl rfl rfl (Nat.le_add_right _ _)

/-- `updateStatus` on one row. -/
def Operation.onRow (number : Text → JsNumber) (operation : Operation)
    (order : OrderRow) : OrderRow :=
  { order with status := (operation.sets number order.id).getD order.status }

theorem onRow_of_ne {text : Text} {status : String} {order : OrderRow}
    (hne : (number text).toInt4 ≠ some (order.id : Int)) :
    (Operation.updateStatus text status).onRow number order = order := by
  simp [Operation.onRow, Operation.sets, hne]

omit [DecidableEq Digest] in
theorem updateStatus_store (join : List OrderItem → List OrderItem) (text : Text)
    (status : String) :
    (updateStatus number store join text status).2 =
      { store with orders :=
        store.orders.map ((Operation.updateStatus text status).onRow number) } := by
  have hkeep (hnone : ∀ order ∈ store.orders, (number text).toInt4 ≠ some (order.id : Int)) :
      store = { store with
        orders := store.orders.map ((Operation.updateStatus text status).onRow number) } := by
    have hmap : store.orders.map ((Operation.updateStatus text status).onRow number) =
        store.orders.map fun order => order :=
      List.map_congr_left fun order horder => onRow_of_ne (hnone order horder)
    rw [hmap, List.map_id']
  unfold updateStatus
  cases hupdate : updateOrder number store text status with
  | error failure =>
      apply hkeep
      intro order horder hid
      have hnan : (number text).isNaN = false := by
        cases hnumber : number text with
        | integer value => rfl
        | other text => simp [hnumber, JsNumber.toInt4] at hid
      simp only [updateOrder, hnan, hid, Bool.false_eq_true, if_false] at hupdate
      split at hupdate
      · rename_i hnone
        simpa using List.find?_eq_none.mp hnone order horder
      · cases hupdate
  | ok updated =>
      obtain ⟨id, after⟩ := updated
      unfold updateOrder at hupdate
      split at hupdate
      · cases hupdate
      split at hupdate
      · cases hupdate
      rename_i value hvalue
      split at hupdate
      · cases hupdate
      rename_i order horder
      cases hupdate
      have hid : (order.id : Int) = value := by simpa using List.find?_some horder
      have hrows : store.orders.map (setStatus order.id status) =
          store.orders.map ((Operation.updateStatus text status).onRow number) := by
        apply List.map_congr_left
        intro other _
        unfold setStatus
        split
        · rename_i heq
          simp [Operation.onRow, Operation.sets, hvalue, ← hid, heq]
        · rename_i hne
          rw [onRow_of_ne]
          rw [hvalue, ← hid]
          intro heq
          exact hne (Int.ofNat.inj (Option.some.inj heq)).symm
      rw [← hrows]
      dsimp only
      split <;> rfl

theorem operate_effect {operation : Operation}
    (hoperate : operate number requestHash store operation = some after) :
    Effect store after ∨
      after = { store with orders := store.orders.map (operation.onRow number) } := by
  cases operation with
  | shop action => exact .inl (step_effect hoperate)
  | updateStatus text status =>
      cases hoperate
      exact .inr (updateStatus_store id text status)

/-! ### The order behind a key -/

/-- Orders and items are numbered by the serial. -/
structure Numbered (store : Store Digest) : Prop where
  orders : ∀ order ∈ store.orders, order.id < store.nextOrderId
  items : ∀ item ∈ store.orderItems, item.orderId < store.nextOrderId

omit [DecidableEq Digest] in
theorem numbered_init (users : UserId → Option Checkout.User) :
    Numbered (Store.init users : Store Digest) where
  orders := by simp [Store.init]
  items := by simp [Store.init]

theorem orderId_itemRows {source : Source} {orderId : OrderId} {item : OrderItem}
    (hitem : item ∈ source.itemRows orderId) : item.orderId = orderId := by
  cases source with
  | requested dto userId cart =>
      obtain ⟨row, -, rfl⟩ := List.mem_map.mp hitem
      rfl
  | sold sale customerEmail =>
      rw [List.mem_singleton.mp hitem]

theorem id_orderRow (source : Source) (orderId : OrderId) :
    (source.orderRow orderId).id = orderId := by
  cases source <;> rfl

omit [DecidableEq Digest] in
theorem Numbered.effect (hnumbered : Numbered store) (heffect : Effect store after) :
    Numbered after := by
  cases heffect with
  | keep horders hitems hkeys hserial =>
      constructor
      · rw [horders]
        exact fun order horder => Nat.lt_of_lt_of_le (hnumbered.orders order horder) hserial
      · rw [hitems]
        exact fun item hitem => Nat.lt_of_lt_of_le (hnumbered.items item hitem) hserial
  | write source horders hitems hkeys hserial =>
      constructor
      · rw [horders, hserial]
        intro order horder
        rcases List.mem_append.mp horder with hold | hnew
        · exact Nat.lt_succ_of_lt (hnumbered.orders order hold)
        · rw [List.mem_singleton.mp hnew, id_orderRow]
          exact Nat.lt_succ_self _
      · rw [hitems, hserial]
        intro item hitem
        rcases List.mem_append.mp hitem with hold | hnew
        · exact Nat.lt_succ_of_lt (hnumbered.items item hold)
        · rw [orderId_itemRows hnew]
          exact Nat.lt_succ_self _

theorem Numbered.operate (hnumbered : Numbered store) {operation : Operation}
    (hoperate : operate number requestHash store operation = some after) : Numbered after := by
  rcases operate_effect hoperate with heffect | rfl
  · exact hnumbered.effect heffect
  · refine ⟨fun order horder => ?_, hnumbered.items⟩
    obtain ⟨before, hbefore, rfl⟩ := List.mem_map.mp horder
    exact hnumbered.orders before hbefore

theorem numbered_of_reachable {users : UserId → Option Checkout.User}
    (hreach : Reachable (operate number requestHash) (Store.init users) store) : Numbered store :=
  hreach.invariant Numbered (numbered_init users) fun _ _ _ _ hnumbered _ hoperate =>
    hnumbered.operate hoperate

/-- The key points to this order, which has these items. -/
structure Stored (store : Store Digest) (key : Text) (row : KeyRow Digest) (order : OrderRow)
    (items : List OrderItem) : Prop where
  key : store.keys key = some row
  found : (store.orders.find? fun other => other.id = order.id) = some order
  items : store.rowsOf order.id = items
  numbered : order.id < store.nextOrderId

variable {key : Text} {row : KeyRow Digest} {order : OrderRow} {items : List OrderItem}

omit [DecidableEq Digest] in
theorem Stored.effect (hstored : Stored store key row order items) (heffect : Effect store after) :
    Stored after key row order items := by
  cases heffect with
  | keep horders hitems hkeys hserial =>
      constructor
      · rw [hkeys, hstored.key]
      · rw [horders, hstored.found]
      · rw [Store.rowsOf, hitems]
        exact hstored.items
      · exact Nat.lt_of_lt_of_le hstored.numbered hserial
  | write source horders hitems hkeys hserial =>
      have hnone :
          ((source.itemRows store.nextOrderId).filter fun item => item.orderId =
            order.id) = [] := by
        rw [List.filter_eq_nil_iff]
        intro item hitem hid
        rw [orderId_itemRows hitem] at hid
        exact Nat.ne_of_gt hstored.numbered (of_decide_eq_true hid)
      constructor
      · exact hkeys key row hstored.key
      · rw [horders, List.find?_append, hstored.found, Option.some_or]
      · rw [Store.rowsOf, hitems, List.filter_append, hnone, List.append_nil]
        exact hstored.items
      · rw [hserial]
        exact Nat.lt_succ_of_lt hstored.numbered

/-- The one step: only `updateStatus` of this order changes what is stored of it. -/
theorem Stored.operate (hstored : Stored store key row order items) {operation : Operation}
    (hoperate : operate number requestHash store operation = some after) :
    Stored after key row (operation.onRow number order) items := by
  cases operation with
  | shop action => exact hstored.effect (step_effect hoperate)
  | updateStatus text status =>
      cases hoperate
      rw [updateStatus_store]
      refine ⟨hstored.key, ?_, hstored.items, hstored.numbered⟩
      rw [List.find?_map]
      exact congrArg (Option.map _) hstored.found

theorem Stored.run (hstored : Stored store key row order items) {between : List Operation}
    (hrun : run (Shop.operate number requestHash) store between = some later) :
    Stored later key row { order with status := statusAfter number order.id order.status between }
      items := by
  induction between generalizing store order with
  | nil =>
      cases hrun
      exact hstored
  | cons operation rest ih =>
      rw [run_cons] at hrun
      obtain ⟨next, hnext, hrest⟩ := Option.bind_eq_some_iff.mp hrun
      exact ih (hstored.operate hnext) hrest

/-! ### The first answer and the repeated one -/

/-- The call that creates the order. -/
theorem Numbered.created (hnumbered : Numbered store) {join : List OrderItem → List OrderItem}
    {dto : CreateOrderDto} {clientKey : Text} {userId : Option UserId} {occurredAt now : Nat}
    {answer : OrderResponse}
    (hcall : createIdempotentJoined number requestHash store join dto clientKey userId occurredAt
      now = (.ok (answer, false), after)) : ∃ source : Source,
    (source.orderRow store.nextOrderId).status = "created" ∧
    answer = responseOf (source.orderRow store.nextOrderId) (source.itemRows store.nextOrderId) ∧
    Stored after (Request.idempotencyKey ⟨dto, clientKey, userId⟩)
      ⟨requestHash dto, some store.nextOrderId⟩ (source.orderRow store.nextOrderId)
      (source.itemRows store.nextOrderId) := by
  unfold createIdempotentJoined at hcall
  split at hcall
  · unfold replayJoined at hcall
    split at hcall <;> try cases hcall
    split at hcall <;> try cases hcall
    split at hcall <;> cases hcall
  rename_i hfree
  unfold createIdempotent at hcall
  simp only [hfree] at hcall
  split at hcall
  · cases hcall
  rename_i source placed hplaced
  obtain ⟨cart, -, rfl, rfl⟩ := insertOrderWithEvent_spec hplaced
  cases hcall
  refine ⟨.requested dto userId cart, rfl, rfl, ?_⟩
  have holder : store.orders.find? (fun other => other.id = store.nextOrderId) = none := by
    rw [List.find?_eq_none]
    intro other hother
    simpa using Nat.ne_of_lt (hnumbered.orders other hother)
  have hnone : store.rowsOf store.nextOrderId = [] := by
    rw [Store.rowsOf, List.filter_eq_nil_iff]
    intro item hitem
    simpa using Nat.ne_of_lt (hnumbered.items item hitem)
  have hall : (((Source.requested dto userId cart).itemRows store.nextOrderId).filter fun item =>
      item.orderId = store.nextOrderId) =
        (Source.requested dto userId cart).itemRows store.nextOrderId := by
    rw [List.filter_eq_self]
    intro item hitem
    rw [decide_eq_true_eq, orderId_itemRows hitem]
  constructor
  · exact Function.update_self _ _ _
  · change (store.orders ++ [_]).find? (fun other : OrderRow => other.id = store.nextOrderId) = _
    rw [List.find?_append, holder, Option.none_or, List.find?_singleton, if_pos]
    exact decide_eq_true rfl
  · change (store.orderItems ++ _).filter (fun item : OrderItem => item.orderId =
      store.nextOrderId) = _
    rw [List.filter_append, hall]
    exact congrArg (· ++ _) hnone
  · exact Nat.lt_succ_self _

/-- The call that finds the key taken. -/
theorem Stored.replayed {join : List OrderItem → List OrderItem} {dto : CreateOrderDto}
    {clientKey : Text} {userId : Option UserId}
    (hstored : Stored later (Request.idempotencyKey ⟨dto, clientKey, userId⟩) row order items)
    (hrow : row = ⟨requestHash dto, some order.id⟩) (occurredAt now : Nat) :
    createIdempotentJoined number requestHash later join dto clientKey userId occurredAt now =
      (.ok (responseOf order (join items), true), later) := by
  simp [createIdempotentJoined, replayJoined, findOneJoined, hstored.key, hstored.found,
    hstored.items, hrow]

omit [DecidableEq Digest] in
theorem responseOf_eq_iff {status : String} {others : List OrderItem} :
    responseOf { order with status := status } others = responseOf order items ↔
      status = order.status ∧ linesOf others = linesOf items := by
  simp [responseOf, linesOf, and_comm]

/-- A repetition is answered with the saved response if and only if the order has its first status
again and the join returns its items as they were inserted. -/
theorem replay_exact_iff {users : UserId → Option Checkout.User}
    {join : List OrderItem → List OrderItem} {dto : CreateOrderDto} {clientKey : Text}
    {userId : Option UserId} {occurredAt now : Nat} {answer : OrderResponse}
    {between : List Operation}
    (hreach : Reachable (operate number requestHash) (Store.init users) store)
    (hcall : createIdempotentJoined number requestHash store join dto clientKey userId occurredAt
      now = (.ok (answer, false), after))
    (hrun : run (operate number requestHash) after between = some later)
    (rejoin : List OrderItem → List OrderItem) (occurredAt' now' : Nat) :
    ∃ repeated, createIdempotentJoined number requestHash later rejoin dto clientKey userId
        occurredAt' now' = (.ok (repeated, true), later) ∧
      (repeated = answer ↔ statusAfter number store.nextOrderId "created" between = "created" ∧
        linesOf (rejoin (later.rowsOf store.nextOrderId)) =
          linesOf (later.rowsOf store.nextOrderId)) := by
  obtain ⟨source, hstatus, rfl, hstored⟩ := (numbered_of_reachable hreach).created hcall
  have hid := id_orderRow source store.nextOrderId
  have hlater := hstored.run hrun
  have hitems : later.rowsOf store.nextOrderId = source.itemRows store.nextOrderId := by
    rw [← hid]
    exact hlater.items.trans (by rw [hid])
  refine ⟨_, hlater.replayed (by rw [hid]) occurredAt' now', ?_⟩
  rw [responseOf_eq_iff, hstatus, hid, hitems]

/-- A pin and a cup. -/
def shelf : List Operation :=
  [.shop (.createProduct ⟨"Pin", 100, 9, none⟩), .shop (.createProduct ⟨"Cup", 200, 9, none⟩)]

def shelved : Store CreateOrderDto :=
  (run (operate readDecimal fun dto => dto)
    (Store.init fun _ => some ⟨"ada@example.com", 0⟩) shelf).getD
    (Store.init fun _ => none)

def pinAndCup : CreateOrderDto := ⟨"ada@example.com", [⟨['1'], 2⟩, ⟨['2'], 1⟩]⟩

/-- The call with the key `k` of user 7. -/
def askForPinAndCup (store : Store CreateOrderDto) (join : List OrderItem → List OrderItem) :
    Except Failure (OrderResponse × Bool) × Store CreateOrderDto :=
  createIdempotentJoined readDecimal (fun dto => dto) store join pinAndCup ['k'] (some 7) 0 0

def pinAndCupAnswer : OrderResponse := ⟨['1'], [(['1'], 2), (['2'], 1)], 400, "UAH", "created"⟩

theorem reachable_shelved : Reachable (operate readDecimal fun dto => dto)
    (Store.init fun _ => some ⟨"ada@example.com", 0⟩) shelved := by
  have hrun : run (operate readDecimal fun dto => dto)
      (Store.init fun _ => some ⟨"ada@example.com", 0⟩)
      shelf = some shelved := rfl
  exact reach_of_runWithin hrun

theorem askForPinAndCup_first : askForPinAndCup shelved id =
    (.ok (pinAndCupAnswer, false), (askForPinAndCup shelved id).2) := by
  have hanswer : (askForPinAndCup shelved id).1 = .ok (pinAndCupAnswer, false) := by decide +kernel
  rw [← hanswer]

/-- The order is shipped and goes back, and another order is placed in between. -/
def detour : List Operation :=
  [.updateStatus ['1'] "shipped", .shop (.create ⟨"bob@example.com", [⟨['2'], 1⟩]⟩ none 0 0),
    .updateStatus ['2'] "cancelled", .updateStatus ['1'] "created"]

theorem replay_exact_detour : ∃ later,
    run (operate readDecimal fun dto => dto) (askForPinAndCup shelved id).2 detour = some later ∧
      askForPinAndCup later id = (.ok (pinAndCupAnswer, true), later) := by
  obtain ⟨later, hrun⟩ : ∃ later,
      run (operate readDecimal fun dto => dto) (askForPinAndCup shelved id).2 detour = some later :=
    Option.isSome_iff_exists.mp rfl
  obtain ⟨repeated, hcall, hsame⟩ :=
    replay_exact_iff reachable_shelved askForPinAndCup_first hrun id 0 0
  refine ⟨later, hrun, ?_⟩
  rw [← hsame.mpr ⟨by decide +kernel, rfl⟩]
  exact hcall

/-- A replay after `updateStatus` shows the new status, and a replay whose join turns the items
round shows them turned round. -/
theorem replay_differs : Reachable (operate readDecimal fun dto => dto)
      (Store.init fun _ => some ⟨"ada@example.com", 0⟩) shelved ∧
    askForPinAndCup shelved id = (.ok (pinAndCupAnswer, false), (askForPinAndCup shelved id).2) ∧
    (∃ later, run (operate readDecimal fun dto => dto) (askForPinAndCup shelved id).2
        [.updateStatus ['1'] "shipped"] = some later ∧
      (askForPinAndCup later id).1 = .ok ({ pinAndCupAnswer with status := "shipped" }, true)) ∧
    (askForPinAndCup (askForPinAndCup shelved id).2 List.reverse).1 =
      .ok ({ pinAndCupAnswer with items := [(['2'], 1), (['1'], 2)] }, true) := by
  refine ⟨reachable_shelved, askForPinAndCup_first, ⟨_, rfl, ?_⟩, ?_⟩
  · decide +kernel
  · decide +kernel

end Marketplace.Shop
