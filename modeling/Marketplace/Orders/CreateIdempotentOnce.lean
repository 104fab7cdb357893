import Marketplace.Orders.CreateIdempotentRows

/-!
# One order for each idempotency key

Over every run in which each caller gives its user: what the calls of one pair of user and client
key commit and answer.
-/

namespace Marketplace.Orders

open ReadCommitted ReadCommitted.Table Transition

variable {Digest : Type} {requestHash : CreateOrderDto → Digest} {call : Call}
  {before after state : State Digest} {userId : UserId} {clientKey : Text} {request : Request}

/-- The controller passes `userId`, which the guard has set. -/
def UserGiven (_ : State Digest) : Action → Prop
  | .createIdempotent _ request => request.userId.isSome = true
  | _ => True

instance (state : State Digest) (action : Action) : Decidable (UserGiven state action) := by
  unfold UserGiven
  split <;> infer_instance

def pairKey (userId : UserId) (clientKey : Text) : Text := decimal userId ++ ':' :: clientKey

def Request.isFor (userId : UserId) (clientKey : Text) (request : Request) : Bool :=
  request.userId = some userId && request.clientKey = clientKey

def Phase.isFor (userId : UserId) (clientKey : Text) (phase : Phase Digest) : Bool :=
  phase.request.any (Request.isFor userId clientKey)

/-- The committed rows of the calls for one pair. -/
def State.ordersFor (state : State Digest) (userId : UserId) (clientKey : Text) :
    List (Call × Order) :=
  state.committedOrders.filter fun entry => (state.calls entry.1).isFor userId clientKey

def State.outboxFor (state : State Digest) (userId : UserId) (clientKey : Text) :
    List (Call × OutboxRow) :=
  state.committedOutbox.filter fun entry => (state.calls entry.1).isFor userId clientKey

/-- A statement failed or a product was missing. -/
def Phase.isAborted : Phase Digest → Bool
  | threw _ .internal | threw _ (.productNotFound _) => true
  | _ => false

/-! ### The invariant -/

structure Inv (requestHash : CreateOrderDto → Digest) (state : State Digest) : Prop where
  keys : KeysInv requestHash state.keys state.calls
  rows : RowsInv state
  given : ∀ call request, (state.calls call).request = some request → request.userId.isSome = true

theorem Runs.moves [DecidableEq Digest] {action : Action} {phase : Phase Digest}
    (hruns : Runs requestHash before action call phase after) :
    ∃ next, after.calls = Function.update before.calls call next ∧
      (next.request = phase.request ∨
        ∃ request, action = .createIdempotent call request ∧ next.request = some request) := by
  cases hruns with
  | began request haction => exact ⟨_, rfl, .inr ⟨request, haction, rfl⟩⟩
  | aborted phase request failure hopen hrequest hfailure => exact ⟨_, rfl, .inl hrequest.symm⟩
  | _ => exact ⟨_, rfl, .inl rfl⟩

theorem inv_reach [DecidableEq Digest]
    (hreach : Reach (step requestHash) UserGiven State.init state) : Inv requestHash state := by
  refine hreach.invariant (Inv requestHash) ⟨keysInv_init, rowsInv_init, nofun⟩ ?_
  intro before action after _ hinv hgiven hstep
  obtain ⟨call, phase, hphase, hruns⟩ := step_runs hstep
  refine ⟨hinv.keys.step hphase hruns, hinv.rows.step hinv.keys hphase hruns, ?_⟩
  intro other request hrequest
  obtain ⟨next, hcalls, hnext⟩ := hruns.moves
  rw [hcalls] at hrequest
  by_cases heq : other = call
  · rw [heq, Function.update_self] at hrequest
    rcases hnext with hsame | ⟨began, rfl, hbegan⟩
    · rw [hsame, ← hphase] at hrequest
      exact hinv.given call request hrequest
    · rw [hbegan] at hrequest
      cases hrequest
      exact hgiven
  · rw [Function.update_of_ne heq] at hrequest
    exact hinv.given other request hrequest

/-! ### Pairs and keys -/

/-- Two pairs have two keys: the user id contains no colon. -/
theorem idempotencyKey_eq_iff (hgiven : request.userId.isSome = true) :
    request.idempotencyKey = pairKey userId clientKey ↔
      request.isFor userId clientKey = true := by
  obtain ⟨owner, howner⟩ := Option.isSome_iff_exists.mp hgiven
  simp only [Request.isFor, Request.idempotencyKey, howner, pairKey, Bool.and_eq_true,
    decide_eq_true_eq, Option.some.injEq]
  constructor
  · intro heq
    obtain ⟨huser, hkey⟩ := append_separator_injective (colon_not_mem_decimal owner)
      (colon_not_mem_decimal userId) heq
    exact ⟨decimal_injective huser, hkey⟩
  · rintro ⟨rfl, rfl⟩
    rfl

/-- A committed row belongs to a call that has created an order. -/
theorem RowsInv.placed_of_closed (hinv : RowsInv state)
    (hclosed : (state.calls call).isOpen = false)
    (hwrote : state.orders.ofTx call ≠ [] ∨ state.outbox.ofTx call ≠ []) :
    ∃ request saved, HasCreated request saved (state.calls call) ∧
      Placed state.orders state.outbox call request saved := by
  have hrows := hinv.rows call
  have hnone : ¬ (state.orders.ofTx call = [] ∧ state.outbox.ofTx call = []) := by
    rintro ⟨horders, houtbox⟩
    exact hwrote.elim (absurd horders) (absurd houtbox)
  cases hphase : state.calls call with
  | created request saved =>
      rw [hphase] at hrows
      exact ⟨request, saved, .inl rfl, hrows⟩
  | returned request order replayed =>
      rw [hphase] at hrows
      cases replayed with
      | true => exact absurd hrows hnone
      | false =>
          obtain ⟨saved, hplaced, rfl⟩ := hrows
          exact ⟨request, saved, .inr rfl, hplaced⟩
  | enqueuing | linking | committing =>
      rw [hphase] at hclosed
      cases hclosed
  | _ =>
      rw [hphase] at hrows
      exact absurd hrows hnone

theorem RowsInv.length_le_one (hinv : RowsInv state) (hclosed : (state.calls call).isOpen = false) :
    (state.orders.ofTx call).length ≤ 1 ∧ (state.outbox.ofTx call).length ≤ 1 := by
  by_cases hwrote : state.orders.ofTx call ≠ [] ∨ state.outbox.ofTx call ≠ []
  · obtain ⟨request, saved, -, hplaced⟩ := hinv.placed_of_closed hclosed hwrote
    obtain ⟨occurredAt, now, houtbox⟩ := hplaced.outbox
    rw [hplaced.orders, houtbox]
    exact ⟨Nat.le_refl 1, Nat.le_refl 1⟩
  · push Not at hwrote
    rw [hwrote.1, hwrote.2]
    exact ⟨Nat.zero_le 1, Nat.zero_le 1⟩

theorem isFor_of_request (hrequest : (state.calls call).request = some request) :
    (state.calls call).isFor userId clientKey = request.isFor userId clientKey := by
  rw [Phase.isFor, hrequest]
  rfl

/-- Two calls of one pair that both have committed rows are one call. -/
theorem Inv.wrote_unique (hinv : Inv requestHash state) {left right : Call}
    (hleft : (state.calls left).isOpen = false) (hright : (state.calls right).isOpen = false)
    (hforLeft : (state.calls left).isFor userId clientKey = true)
    (hforRight : (state.calls right).isFor userId clientKey = true)
    (hwroteLeft : state.orders.ofTx left ≠ [] ∨ state.outbox.ofTx left ≠ [])
    (hwroteRight : state.orders.ofTx right ≠ [] ∨ state.outbox.ofTx right ≠ []) :
    left = right := by
  obtain ⟨request, saved, hcreated, -⟩ := hinv.rows.placed_of_closed hleft hwroteLeft
  obtain ⟨request', saved', hcreated', -⟩ := hinv.rows.placed_of_closed hright hwroteRight
  rw [isFor_of_request hcreated.request_eq] at hforLeft
  rw [isFor_of_request hcreated'.request_eq] at hforRight
  have hkey := (idempotencyKey_eq_iff (hinv.given left request hcreated.request_eq)).mpr hforLeft
  have hkey' :=
    (idempotencyKey_eq_iff (hinv.given right request' hcreated'.request_eq)).mpr hforRight
  apply hinv.keys.single left right (pairKey userId clientKey)
  · rw [← hkey]
    exact hcreated.creates
  · rw [← hkey']
    exact hcreated'.creates

theorem Inv.ordersFor_length (hinv : Inv requestHash state) :
    (state.ordersFor userId clientKey).length ≤ 1 := by
  unfold State.ordersFor State.committedOrders Inserts.committed State.isOpen
  rw [List.filter_filter]
  apply Inserts.length_filter_le_one state.orders
    (fun call => (state.calls call).isFor userId clientKey && !(state.calls call).isOpen)
  · intro call hcond
    simp only [Bool.and_eq_true, Bool.not_eq_true'] at hcond
    exact (hinv.rows.length_le_one hcond.2).1
  · intro left right hleft hright hwroteLeft hwroteRight
    simp only [Bool.and_eq_true, Bool.not_eq_true'] at hleft hright
    exact hinv.wrote_unique hleft.2 hright.2 hleft.1 hright.1 (.inl hwroteLeft) (.inl hwroteRight)

theorem Inv.outboxFor_length (hinv : Inv requestHash state) :
    (state.outboxFor userId clientKey).length ≤ 1 := by
  unfold State.outboxFor State.committedOutbox Inserts.committed State.isOpen
  rw [List.filter_filter]
  apply Inserts.length_filter_le_one state.outbox
    (fun call => (state.calls call).isFor userId clientKey && !(state.calls call).isOpen)
  · intro call hcond
    simp only [Bool.and_eq_true, Bool.not_eq_true'] at hcond
    exact (hinv.rows.length_le_one hcond.2).2
  · intro left right hleft hright hwroteLeft hwroteRight
    simp only [Bool.and_eq_true, Bool.not_eq_true'] at hleft hright
    exact hinv.wrote_unique hleft.2 hright.2 hleft.1 hright.1 (.inr hwroteLeft) (.inr hwroteRight)

/-! ### What a pair commits and answers -/

theorem eq_singleton_of_mem {Entry : Type} {entries : List Entry} {entry : Entry}
    (hmem : entry ∈ entries) (hlength : entries.length ≤ 1) : entries = [entry] := by
  obtain ⟨other, rfl⟩ := List.length_eq_one_iff.mp
    (Nat.le_antisymm hlength (List.length_pos_of_mem hmem))
  rw [List.mem_singleton.mp hmem]

/-- The order of a call that has created one is all that its pair has committed. -/
theorem Inv.rowsFor_eq (hinv : Inv requestHash state) {saved : Order}
    (hcreated : HasCreated request saved (state.calls call))
    (hplaced : Placed state.orders state.outbox call request saved)
    (hfor : request.isFor userId clientKey = true) :
    state.ordersFor userId clientKey = [(call, saved)] ∧
      ∃ occurredAt now, state.outboxFor userId clientKey =
        [(call, enqueueOrderPlaced (eventData saved) occurredAt now)] := by
  rw [← isFor_of_request hcreated.request_eq] at hfor
  constructor
  · apply eq_singleton_of_mem ?_ hinv.ordersFor_length
    exact List.mem_filter.mpr ⟨hplaced.mem_committedOrders hcreated.closed, hfor⟩
  · obtain ⟨occurredAt, now, houtbox⟩ := hplaced.outbox
    refine ⟨occurredAt, now, eq_singleton_of_mem ?_ hinv.outboxFor_length⟩
    refine List.mem_filter.mpr ⟨List.mem_filter.mpr ⟨?_, ?_⟩, hfor⟩
    · rw [← Inserts.mem_ofTx, houtbox]
      exact List.mem_singleton.mpr rfl
    · rw [State.isOpen, hcreated.closed]
      rfl

/-- Every order that is returned is the row that some call has committed. -/
theorem RowsInv.mem_of_returned (hinv : RowsInv state) {order : OrderResponse} {replayed : Bool}
    (hreturned : state.calls call = .returned request order replayed) :
    ∃ entry ∈ state.committedOrders, order = toResponse entry.2 := by
  cases replayed with
  | true => exact hinv.replays call request order hreturned
  | false =>
      have hrows := hinv.rows call
      rw [hreturned] at hrows
      obtain ⟨saved, hplaced, horder⟩ := hrows
      exact ⟨(call, saved), hplaced.mem_committedOrders (by rw [hreturned]; rfl), horder⟩

theorem RowsInv.eq_of_id (hinv : RowsInv state) {left right : Call × Order}
    (hleft : left ∈ state.committedOrders) (hright : right ∈ state.committedOrders)
    (hid : left.2.id = right.2.id) : left = right :=
  List.inj_on_of_nodup_map hinv.unique (mem_committedOrders.mp hleft).1
    (mem_committedOrders.mp hright).1 hid

/-- Behind a returned order stands the call of its pair that has created it. -/
theorem Inv.created_of_returned (hinv : Inv requestHash state) {order : OrderResponse}
    {replayed : Bool} (hreturned : state.calls call = .returned request order replayed)
    (hfor : request.isFor userId clientKey = true) :
    ∃ creator claimed saved, HasCreated claimed saved (state.calls creator) ∧
      Placed state.orders state.outbox creator claimed saved ∧
      claimed.isFor userId clientKey = true ∧ order = toResponse saved := by
  have hgiven := hinv.given call request (by rw [hreturned]; rfl)
  have hok := hinv.keys.ok call
  rw [hreturned] at hok
  obtain ⟨orderId, hrow, hid⟩ := hok
  obtain ⟨creator, claimed, saved, hcreated, hplaced, hkey, hlink⟩ :=
    hinv.rows.creator hinv.keys hrow
  refine ⟨creator, claimed, saved, hcreated, hplaced, ?_, ?_⟩
  · rw [← idempotencyKey_eq_iff (hinv.given creator claimed hcreated.request_eq), ← hkey]
    exact (idempotencyKey_eq_iff hgiven).mpr hfor
  · obtain ⟨entry, hentry, horder⟩ := hinv.rows.mem_of_returned hreturned
    have hsame : entry.2.id = saved.id := by
      have hsaved : orderId = saved.id := Option.some.inj (congrArg KeyRow.orderId hlink)
      rw [horder, hsaved] at hid
      exact decimal_nat_injective hid
    have heq := hinv.rows.eq_of_id hentry (hplaced.mem_committedOrders hcreated.closed) hsame
    rw [horder, heq]

/-- What the calls for one pair of user and client key have committed and answered. -/
structure ExactlyOnce (requestHash : CreateOrderDto → Digest) (state : State Digest)
    (userId : UserId) (clientKey : Text) : Prop where
  orders : (state.ordersFor userId clientKey).length ≤ 1
  outbox : (state.outboxFor userId clientKey).length ≤ 1
  /-- Every answer is the one order of the pair, which belongs to the user. -/
  answer : ∀ call request order replayed, state.calls call = .returned request order replayed →
    request.isFor userId clientKey = true → ∃ creator saved occurredAt now,
      state.ordersFor userId clientKey = [(creator, saved)] ∧
      state.outboxFor userId clientKey =
        [(creator, enqueueOrderPlaced (eventData saved) occurredAt now)] ∧
      order = toResponse saved ∧ saved.userId = some userId
  /-- At most one answer is not a replay. -/
  fresh : ∀ call other request request' order order',
    state.calls call = .returned request order false →
    state.calls other = .returned request' order' false →
    request.isFor userId clientKey = true → request'.isFor userId clientKey = true → call = other
  /-- When the calls of the pair are over and one has returned, one answer is not a replay. -/
  created : (∀ call, (state.calls call).isFor userId clientKey = true →
      (state.calls call).isOver = true) →
    (∃ call request order replayed, state.calls call = .returned request order replayed ∧
      request.isFor userId clientKey = true) →
    ∃ call request order, state.calls call = .returned request order false ∧
      request.isFor userId clientKey = true
  mismatch : ∀ call request row, (state.calls call).request = some request →
    request.isFor userId clientKey = true →
    state.keys.committed (pairKey userId clientKey) = some row →
    row.requestHash ≠ requestHash request.dto →
    (∀ entry ∈ state.committedOrders, entry.1 ≠ call) ∧
      ((state.calls call).isOver = true → (state.calls call).isAborted = false →
        ∃ failure, state.calls call = .threw request failure ∧ failure.toHttp.status = 422)
  free : (∀ call, (state.calls call).isFor userId clientKey = true →
      (state.calls call).isAborted = true) →
    state.keys.cell (pairKey userId clientKey) = Cell.absent
  /-- No call for another pair uses the key row of this one. -/
  apart : ∀ call request, (state.calls call).request = some request →
    (request.idempotencyKey = pairKey userId clientKey ↔ request.isFor userId clientKey = true)

theorem Inv.answer (hinv : Inv requestHash state) {order : OrderResponse} {replayed : Bool}
    (hreturned : state.calls call = .returned request order replayed)
    (hfor : request.isFor userId clientKey = true) :
    ∃ creator saved occurredAt now, state.ordersFor userId clientKey = [(creator, saved)] ∧
      state.outboxFor userId clientKey =
        [(creator, enqueueOrderPlaced (eventData saved) occurredAt now)] ∧
      order = toResponse saved ∧ saved.userId = some userId := by
  obtain ⟨creator, claimed, saved, hcreated, hplaced, hclaimed, horder⟩ :=
    hinv.created_of_returned hreturned hfor
  obtain ⟨horders, occurredAt, now, houtbox⟩ := hinv.rowsFor_eq hcreated hplaced hclaimed
  refine ⟨creator, saved, occurredAt, now, horders, houtbox, horder, ?_⟩
  simp only [Request.isFor, Bool.and_eq_true, decide_eq_true_eq] at hclaimed
  rw [hplaced.owner, hclaimed.1]

theorem Inv.fresh (hinv : Inv requestHash state) {other : Call} {request' : Request}
    {order order' : OrderResponse} (hcall : state.calls call = .returned request order false)
    (hother : state.calls other = .returned request' order' false)
    (hfor : request.isFor userId clientKey = true)
    (hfor' : request'.isFor userId clientKey = true) : call = other := by
  have hwrote : ∀ {call request order}, state.calls call = .returned request order false →
      state.orders.ofTx call ≠ [] := by
    intro call request order hreturned
    have hrows := hinv.rows.rows call
    rw [hreturned] at hrows
    obtain ⟨saved, hplaced, -⟩ := hrows
    rw [hplaced.orders]
    exact List.cons_ne_nil _ _
  have hrequest : (state.calls call).request = some request := by
    rw [hcall]
    rfl
  have hrequest' : (state.calls other).request = some request' := by
    rw [hother]
    rfl
  rw [← isFor_of_request hrequest] at hfor
  rw [← isFor_of_request hrequest'] at hfor'
  exact hinv.wrote_unique (by rw [hcall]; rfl) (by rw [hother]; rfl) hfor hfor'
    (.inl (hwrote hcall)) (.inl (hwrote hother))

theorem Inv.mismatch (hinv : Inv requestHash state) {row : KeyRow Digest}
    (hrequest : (state.calls call).request = some request)
    (hfor : request.isFor userId clientKey = true)
    (hrow : state.keys.committed (pairKey userId clientKey) = some row)
    (hhash : row.requestHash ≠ requestHash request.dto) :
    (∀ entry ∈ state.committedOrders, entry.1 ≠ call) ∧
      ((state.calls call).isOver = true → (state.calls call).isAborted = false →
        ∃ failure, state.calls call = .threw request failure ∧ failure.toHttp.status = 422) := by
  rw [← (idempotencyKey_eq_iff (hinv.given call request hrequest)).mpr hfor] at hrow
  have hok := hinv.keys.ok call
  constructor
  · rintro ⟨owner, row'⟩ hentry rfl
    obtain ⟨hmem, hclosed⟩ := mem_committedOrders.mp hentry
    obtain ⟨request', saved, hcreated, -⟩ := hinv.rows.placed_of_closed hclosed
      (.inl (List.ne_nil_of_mem (Inserts.mem_ofTx.mpr hmem)))
    have hsame : request = request' := Option.some.inj (hrequest.symm.trans hcreated.request_eq)
    subst hsame
    have hstored := committed_of_creates hok (hcreated.creates)
    rw [hrow] at hstored
    exact hhash (congrArg KeyRow.requestHash (Option.some.inj hstored))
  · intro hover haborted
    cases hphase : state.calls call with
    | returned request' order replayed =>
        rw [hphase] at hok hrequest
        cases hrequest
        obtain ⟨orderId, hstored, -⟩ := hok
        rw [hrow] at hstored
        exact absurd (congrArg KeyRow.requestHash (Option.some.inj hstored)) hhash
    | threw request' failure =>
        rw [hphase] at hrequest haborted
        cases hrequest
        cases failure with
        | keyReused => exact ⟨.keyReused, rfl, rfl⟩
        | orderNotFound orderId => exact absurd hphase (hinv.rows.found call request orderId)
        | productNotFound | internal => cases haborted
    | _ =>
        rw [hphase] at hover
        cases hover

theorem Inv.free (hinv : Inv requestHash state)
    (haborted : ∀ call, (state.calls call).isFor userId clientKey = true →
      (state.calls call).isAborted = true) :
    state.keys.cell (pairKey userId clientKey) = Cell.absent := by
  have huser : ∀ {call request}, (state.calls call).request = some request →
      pairKey userId clientKey = request.idempotencyKey → (state.calls call).isAborted = true := by
    intro call request hrequest hkey
    apply haborted
    rw [isFor_of_request hrequest, ← idempotencyKey_eq_iff (hinv.given call request hrequest), hkey]
  apply Cell.ext
  · change state.keys.committed _ = none
    rw [Option.eq_none_iff_forall_ne_some]
    intro row hrow
    obtain ⟨creator, claimed, saved, hcreated, -, hkey, -⟩ := hinv.rows.creator hinv.keys hrow
    have hcreator := huser hcreated.request_eq hkey
    rcases hcreated with hphase | hphase <;> rw [hphase] at hcreator <;> cases hcreator
  · change _ = none
    rw [Option.eq_none_iff_forall_ne_some]
    rintro ⟨owner, version⟩ hheld
    have hholds := hinv.keys.held _ owner version hheld
    cases hphase : state.calls owner with
    | pricing | enqueuing | linking | committing =>
        rw [hphase] at hholds
        have howner := huser (by rw [hphase]; rfl) hholds.1
        rw [hphase] at howner
        cases howner
    | _ =>
        rw [hphase] at hholds
        exact hholds.elim

/-- Idempotent order creation is exactly-once and private to its user. -/
theorem createIdempotent_exactlyOnce [DecidableEq Digest] (requestHash : CreateOrderDto → Digest)
    {state : State Digest} (hreach : Reach (step requestHash) UserGiven State.init state)
    (userId : UserId) (clientKey : Text) : ExactlyOnce requestHash state userId clientKey := by
  have hinv := inv_reach hreach
  refine
    { orders := hinv.ordersFor_length
      outbox := hinv.outboxFor_length
      answer := fun _ _ _ _ => hinv.answer
      fresh := fun _ _ _ _ _ _ => hinv.fresh
      created := ?_
      mismatch := fun _ _ _ => hinv.mismatch
      free := hinv.free
      apart := fun call request hrequest =>
        idempotencyKey_eq_iff (hinv.given call request hrequest) }
  rintro hover ⟨call, request, order, replayed, hreturned, hfor⟩
  obtain ⟨creator, claimed, saved, hcreated, -, hclaimed, -⟩ :=
    hinv.created_of_returned hreturned hfor
  rcases hcreated with hphase | hphase
  · have hcreator := hover creator (by rwa [isFor_of_request (by rw [hphase]; rfl)])
    rw [hphase] at hcreator
    cases hcreator
  · exact ⟨creator, claimed, _, hphase, hclaimed⟩

/-- Four calls of one pair. The first claims the key and fails, the second creates the order, the
third replays it before the second has answered, the fourth comes with another body. -/
def retryTrace : List Action :=
  let dto : CreateOrderDto := ⟨"a@shop.test", [⟨['3'], 2⟩]⟩
  let request : Request := ⟨dto, ['k'], some 7⟩
  [.createIdempotent 0 request, .createIdempotent 1 request, .createIdempotent 2 request,
    .createIdempotent 3 ⟨⟨"a@shop.test", [⟨['3'], 5⟩]⟩, ['k'], some 7⟩,
    .claim 0, .abort 0, .claim 1, .findProduct 1 (some ⟨3, 1500, "UAH"⟩), .save 1,
    .enqueue 1 10 10, .link 1, .commit 1, .claim 2, .selectKey 2, .commit 2, .respond 2,
    .respond 1, .claim 3, .selectKey 3, .commit 3, .respond 3]

/-- The `replayed` flag of a call that has returned. -/
def Phase.replayed : Phase Digest → Option Bool
  | returned _ _ replayed => some replayed
  | _ => none

theorem createIdempotent_exactlyOnce_retry :
    ∃ state : State (List OrderItemDto),
      Reach (step CreateOrderDto.items) UserGiven State.init state ∧
      ((state.calls 1).replayed = some false ∧ (state.calls 2).replayed = some true ∧
        (state.calls 3).replayed = none ∧ (state.calls 3).isOver = true) ∧
      ExactlyOnce CreateOrderDto.items state 7 ['k'] := by
  obtain ⟨state, hreach, hcheck⟩ : ∃ state : State (List OrderItemDto),
      Reach (step CreateOrderDto.items) UserGiven State.init state ∧
      decide ((state.calls 1).replayed = some false ∧ (state.calls 2).replayed = some true ∧
        (state.calls 3).replayed = none ∧ (state.calls 3).isOver = true) = true :=
    exists_reach_of_runWithin retryTrace (by decide +kernel)
  exact ⟨state, hreach, of_decide_eq_true hcheck,
    createIdempotent_exactlyOnce CreateOrderDto.items hreach 7 ['k']⟩

end Marketplace.Orders
