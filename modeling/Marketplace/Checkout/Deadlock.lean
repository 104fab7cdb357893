import Marketplace.Checkout.Conservation
import Marketplace.Lib.LockOrder

/-!
# Checkouts never deadlock

A call locks the row of its product and then the row of its user. The foreign keys of the rows it
inserts lock both rows again, and the order that it has inserted itself, in a mode that is in
nobody's way: a chain of waits leads from a product to a user and ends there.
-/

namespace Marketplace.Checkout

open ReadCommitted Transition Relation

variable {shop : Shop} {state : State} {call waiter holder : Call} {phase : Phase}

inductive LockMode where
  /-- A foreign-key check. -/
  | keyShare
  /-- An UPDATE that leaves the key as it is. -/
  | noKeyUpdate
  /-- The row is one that the transaction has inserted. -/
  | inserted
  deriving DecidableEq

def LockMode.conflicts : LockMode → LockMode → Bool
  | inserted, _ | _, inserted => true
  | noKeyUpdate, noKeyUpdate => true
  | _, _ => false

inductive RowId where
  | product (productId : ProductId)
  | user (userId : UserId)
  | order (orderId : OrderId)
  deriving DecidableEq

structure RowLock where
  row : RowId
  mode : LockMode
  deriving DecidableEq

/-- The locks that the next statement takes. -/
def Phase.asks : Phase → List RowLock
  | takingStock purchase => [⟨.product purchase.productId, .noKeyUpdate⟩]
  | takingBalance sale => [⟨.user sale.purchase.userId, .noKeyUpdate⟩]
  | saving sale _ => [⟨.user sale.purchase.userId, .keyShare⟩]
  | savingItem sale order =>
      [⟨.order order.id, .keyShare⟩, ⟨.product sale.purchase.productId, .keyShare⟩]
  | savingJob _ order => [⟨.order order.id, .keyShare⟩]
  | _ => []

/-- The rows that foreign-key checks have locked until the end of the transaction. -/
def Phase.checked : Phase → List RowId
  | savingItem sale _ => [.user sale.purchase.userId]
  | savingJob sale order | enqueuing sale order | committing sale order =>
      [.user sale.purchase.userId, .order order.id, .product sale.purchase.productId]
  | _ => []

inductive Holds (state : State) (call : Call) : RowLock → Prop
  | product (productId : ProductId) (version : Option Product)
      (hheld : (state.products.cell productId).held = some (call, version)) :
      Holds state call ⟨.product productId, .noKeyUpdate⟩
  | user (userId : UserId) (version : Option User)
      (hheld : (state.users.cell userId).held = some (call, version)) :
      Holds state call ⟨.user userId, .noKeyUpdate⟩
  | order (order : Order) (hopen : state.isOpen call = true) (hrow : (call, order) ∈ state.orders) :
      Holds state call ⟨.order order.id, .inserted⟩
  | checked (row : RowId) (hrow : row ∈ (state.calls call).checked) :
      Holds state call ⟨row, .keyShare⟩

/-- An edge of the wait-for graph. -/
def WaitsFor (state : State) (waiter holder : Call) : Prop :=
  waiter ≠ holder ∧ ∃ lock ∈ (state.calls waiter).asks, ∃ mode,
    Holds state holder ⟨lock.row, mode⟩ ∧ lock.mode.conflicts mode = true

/-- The statement that the call is at gets or makes a number outside `integer`. -/
def fails (state : State) (call : Call) : Bool :=
  match state.calls call with
  | .began purchase => !fitsInt4 purchase.quantity
  | .charging sale => !fitsInt4 sale.totalCents
  | .takingBalance sale =>
      match state.users.visit call sale.purchase.userId
          (fun user => sale.totalCents ≤ user.balanceCents) (balance.take sale.totalCents) with
      | some (users, true) =>
          (users.view call sale.purchase.userId).any fun user => !fitsInt4 user.balanceCents
      | _ => false
  | _ => false

/-- The statement that an open call is at; the two numbers are the clock readings of the outbox
row. -/
def Phase.statement (call : Call) (occurredAt now : Nat) : Phase → Option Action
  | began _ => some (.scanProducts call)
  | takingStock _ => some (.takeStock call)
  | charging _ => some (.scanUsers call)
  | takingBalance _ => some (.takeBalance call)
  | saving _ _ => some (.saveOrder call)
  | savingItem _ _ => some (.saveItem call)
  | savingJob _ _ => some (.saveJob call)
  | enqueuing _ _ => some (.enqueue call occurredAt now)
  | committing _ _ => some (.commit call)
  | idle | returned _ _ | threw _ => none

/-- The next step of an open call: its statement or, if that fails, the rollback. -/
def nextStep (state : State) (call : Call) (occurredAt now : Nat) : Option State :=
  if fails state call then step state (.abort call)
  else ((state.calls call).statement call occurredAt now).bind (step state)

structure DeadlockFree (state : State) : Prop where
  /-- A statement takes the locks it asks for, and they are kept until the transaction ends. -/
  locks : ∀ call action after lock, step state action = some after → after.isOpen call = true →
    lock.mode ≠ .inserted → (Holds after call lock ↔ Holds state call lock ∨
      after.calls call ≠ state.calls call ∧ lock ∈ (state.calls call).asks)
  acyclic : ∀ call, ¬ TransGen (WaitsFor state) call call
  /-- The edges of the graph are all that an open call can wait for. -/
  enabled : ∀ call occurredAt now, state.isOpen call = true →
    ((nextStep state call occurredAt now).isSome = true ↔ ∀ holder, ¬ WaitsFor state call holder)
  /-- Whoever is open, one that is waited for, or the call itself, can take its next step. -/
  progress : ∀ call, state.isOpen call = true → ∃ last, ReflTransGen (WaitsFor state) call last ∧
    state.isOpen last = true ∧ ∀ occurredAt now, (nextStep state last occurredAt now).isSome = true

/-! ### The locks of a phase -/

def Phase.locks (phase : Phase) : List RowLock :=
  (phase.stockTaken.map fun taken => ⟨.product taken.1, .noKeyUpdate⟩).toList ++
    (phase.balanceTaken.map fun taken => ⟨.user taken.1, .noKeyUpdate⟩).toList ++
    phase.checked.map fun row => ⟨row, .keyShare⟩

theorem Inv.holds_iff (hinv : Inv shop state) {lock : RowLock} (hmode : lock.mode ≠ .inserted) :
    Holds state call lock ↔ lock ∈ (state.calls call).locks := by
  simp only [Phase.locks, List.mem_append, Option.mem_toList, Option.map_eq_some_iff, List.mem_map]
  constructor
  · intro hholds
    cases hholds with
    | product productId version hheld =>
        obtain ⟨amount, htaken⟩ := hinv.products.held productId call version hheld
        exact .inl (.inl ⟨_, htaken, rfl⟩)
    | user userId version hheld =>
        obtain ⟨amount, htaken⟩ := hinv.users.held userId call version hheld
        exact .inl (.inr ⟨_, htaken, rfl⟩)
    | order => exact absurd rfl hmode
    | checked row hrow => exact .inr ⟨row, hrow, rfl⟩
  · rintro ((⟨⟨productId, amount⟩, htaken, rfl⟩ | ⟨⟨userId, amount⟩, htaken, rfl⟩) | ⟨row,
      hrow, rfl⟩)
    · obtain ⟨product, hcell, -⟩ := hinv.products.taken call productId amount htaken
      exact .product productId _ (congrArg Cell.held hcell)
    · obtain ⟨user, hcell, -⟩ := hinv.users.taken call userId amount htaken
      exact .user userId _ (congrArg Cell.held hcell)
    · exact .checked row hrow

/-- A step of a call that stays open. -/
theorem Runs.locks {after : State} {action : Action} (hruns : Runs state action call phase after)
    (hopen : after.isOpen call = true) :
    after.calls call ≠ phase ∧ ∀ lock, lock ∈ (after.calls call).locks ↔
      lock ∈ phase.locks ∨ lock ∈ phase.asks := by
  rw [State.isOpen] at hopen
  cases hruns with
  | refused | committed | aborted =>
      simp [State.goto, State.rollback, Phase.isOpen] at hopen
  | _ =>
      simp only [State.goto, Function.update_self]
      refine ⟨by simp, ?_⟩
      intro lock
      grind [Phase.locks, Phase.asks, Phase.stockTaken, Phase.balanceTaken, Phase.checked]

theorem holds_step (hinv : Inv shop state) {after : State} {action : Action} {lock : RowLock}
    (hnext : Inv shop after) (hstep : step state action = some after)
    (hopen : after.isOpen call = true) (hmode : lock.mode ≠ .inserted) :
    Holds after call lock ↔ Holds state call lock ∨
      after.calls call ≠ state.calls call ∧ lock ∈ (state.calls call).asks := by
  obtain ⟨actor, phase, hphase, hruns⟩ := step_runs hstep
  rw [hinv.holds_iff hmode, hnext.holds_iff hmode]
  by_cases hactor : call = actor
  · subst hactor
    obtain ⟨hmoved, hlocks⟩ := hruns.locks hopen
    rw [hlocks, hphase, and_iff_right hmoved]
  · rw [hruns.calls_of_ne hactor]
    simp

/-! ### Who can be in the way -/

theorem order_of_asks {orderId : OrderId} {mode : LockMode}
    (hask : ⟨.order orderId, mode⟩ ∈ phase.asks) :
    ∃ sale order, phase.placed = some (sale, order) ∧ order.id = orderId := by
  cases phase with
  | savingItem sale order => exact ⟨sale, order, rfl, by simp_all [Phase.asks]⟩
  | savingJob sale order => exact ⟨sale, order, rfl, by simp_all [Phase.asks]⟩
  | _ => simp [Phase.asks] at hask

/-- Only an UPDATE waits, and only for an UPDATE of the same row. -/
theorem Inv.exists_update_of_waits (hinv : Inv shop state) (hwaits : WaitsFor state waiter holder) :
    ∃ row, ⟨row, .noKeyUpdate⟩ ∈ (state.calls waiter).asks ∧
      Holds state holder ⟨row, .noKeyUpdate⟩ := by
  obtain ⟨hne, ⟨row, asked⟩, hask, mode, hholds, hconflict⟩ := hwaits
  have hasked : asked ≠ .inserted := by
    rintro rfl
    cases hphase : state.calls waiter <;> simp [hphase, Phase.asks] at hask
  cases mode with
  | keyShare => cases asked <;> simp_all [LockMode.conflicts]
  | noKeyUpdate =>
      cases asked with
      | noKeyUpdate => exact ⟨row, hask, hholds⟩
      | keyShare => cases hconflict
      | inserted => exact absurd rfl hasked
  | inserted =>
      cases hholds with
      | order order hopen hrow =>
          obtain ⟨sale, own, hplaced, hid⟩ := order_of_asks hask
          exact absurd (hinv.rows.call_of_order hplaced hrow hid) hne

/-- The order in which a call takes its locks. -/
def RowId.rank : RowId → Nat
  | product _ => 0
  | user _ => 1
  | order _ => 2

theorem Inv.ranked (hinv : Inv shop state) :
    LockOrder.Ranked (WaitsFor state)
      (fun call row => ⟨row, .noKeyUpdate⟩ ∈ (state.calls call).asks)
      (fun call row => Holds state call ⟨row, .noKeyUpdate⟩) RowId.rank where
  asked _ _ hwaits := hinv.exists_update_of_waits hwaits
  above call row row' hask hholds := by
    rw [hinv.holds_iff LockMode.noConfusion] at hholds
    cases hphase : state.calls call with
    | takingStock purchase =>
        -- it has no lock so far
        simp [hphase, Phase.locks, Phase.stockTaken, Phase.balanceTaken, Phase.checked] at hholds
    | takingBalance sale =>
        -- it has the product and asks for the user
        simp only [hphase, Phase.asks, List.mem_singleton, RowLock.mk.injEq, and_true] at hask
        simp only [hphase, Phase.locks, Phase.stockTaken, Phase.balanceTaken, Phase.checked,
          Option.map_some, Option.map_none, Option.toList_some, Option.toList_none, List.append_nil,
          List.map_nil, List.mem_singleton, RowLock.mk.injEq, and_true] at hholds
        rw [hask, hholds]
        exact Nat.zero_lt_one
    | _ => simp [hphase, Phase.asks] at hask

/-! ### What waits can do nothing else -/

theorem Inv.free_of_asks (hinv : Inv shop state)
    (hasks : ∀ row, ⟨row, .noKeyUpdate⟩ ∉ (state.calls call).asks) (holder : Call) :
    ¬ WaitsFor state call holder := by
  intro hwaits
  obtain ⟨row, hask, -⟩ := hinv.exists_update_of_waits hwaits
  exact hasks row hask

theorem waitsFor_of_holds {row : RowId} (hne : waiter ≠ holder)
    (hasks : (state.calls waiter).asks = [⟨row, .noKeyUpdate⟩])
    (hholds : Holds state holder ⟨row, .noKeyUpdate⟩) : WaitsFor state waiter holder := by
  refine ⟨hne, ⟨row, .noKeyUpdate⟩, ?_, .noKeyUpdate, hholds, rfl⟩
  rw [hasks, List.mem_singleton]

theorem holds_product_iff {productId : ProductId} :
    Holds state call ⟨.product productId, .noKeyUpdate⟩ ↔
      ∃ version, (state.products.cell productId).held = some (call, version) := by
  constructor
  · intro hholds
    cases hholds with
    | product _ version hheld => exact ⟨version, hheld⟩
  · rintro ⟨version, hheld⟩
    exact .product productId version hheld

theorem holds_user_iff {userId : UserId} :
    Holds state call ⟨.user userId, .noKeyUpdate⟩ ↔
      ∃ version, (state.users.cell userId).held = some (call, version) := by
  constructor
  · intro hholds
    cases hholds with
    | user _ version hheld => exact ⟨version, hheld⟩
  · rintro ⟨version, hheld⟩
    exact .user userId version hheld

/-- An UPDATE is let through unless somebody else has updated its row. -/
theorem Inv.free_iff (hinv : Inv shop state) {row : RowId}
    (hasks : (state.calls call).asks = [⟨row, .noKeyUpdate⟩]) :
    (∀ holder, ¬ WaitsFor state call holder) ↔
      ∀ holder, Holds state holder ⟨row, .noKeyUpdate⟩ → holder = call := by
  constructor
  · intro hfree holder hholds
    by_contra hne
    exact hfree holder (waitsFor_of_holds (Ne.symm hne) hasks hholds)
  · intro hown holder hwaits
    obtain ⟨other, hask, hholds⟩ := hinv.exists_update_of_waits hwaits
    rw [hasks, List.mem_singleton] at hask
    cases hask
    exact hwaits.1 (hown holder hholds).symm

theorem Inv.free_iff_product_lockable (hinv : Inv shop state) {purchase : Purchase}
    (hphase : state.calls call = .takingStock purchase) :
    (∀ holder, ¬ WaitsFor state call holder) ↔
      state.products.lockable call purchase.productId = true := by
  have hasks : (state.calls call).asks = [⟨.product purchase.productId, .noKeyUpdate⟩] := by
    rw [hphase, Phase.asks]
  rw [hinv.free_iff hasks, Table.lockable_iff]
  simp only [holds_product_iff, forall_exists_index]

theorem Inv.free_iff_user_lockable (hinv : Inv shop state) {sale : Sale}
    (hphase : state.calls call = .takingBalance sale) :
    (∀ holder, ¬ WaitsFor state call holder) ↔
      state.users.lockable call sale.purchase.userId = true := by
  have hasks : (state.calls call).asks = [⟨.user sale.purchase.userId, .noKeyUpdate⟩] := by
    rw [hphase, Phase.asks]
  rw [hinv.free_iff hasks, Table.lockable_iff]
  simp only [holds_user_iff, forall_exists_index]

theorem nextStep_of_fails (hfails : fails state call = true) (hopen : state.isOpen call = true)
    (occurredAt now : Nat) : (nextStep state call occurredAt now).isSome = true := by
  rw [State.isOpen] at hopen
  simp [nextStep, hfails, step, abort, hopen]

/-- Without an overflow the next step is the statement. -/
theorem nextStep_of_not_fails (hfails : ¬ fails state call = true) (occurredAt now : Nat) :
    nextStep state call occurredAt now =
      ((state.calls call).statement call occurredAt now).bind (step state) := by
  rw [nextStep, if_neg hfails]

theorem nextStep_takingStock {purchase : Purchase}
    (hphase : state.calls call = .takingStock purchase) (occurredAt now : Nat) :
    (nextStep state call occurredAt now).isSome = true ↔
      state.products.lockable call purchase.productId = true := by
  have hfails : ¬ fails state call = true := by simp [fails, hphase]
  rw [nextStep_of_not_fails hfails, hphase, Phase.statement, Option.bind_some, step]
  simp only [takeStock, hphase]
  split
  · rename_i products hvisit
    obtain ⟨product, hview⟩ := Table.exists_view_of_visit hvisit
    simp [hview, (Table.visit_eq_some hvisit).1]
  · rename_i products hvisit
    simp [(Table.visit_eq_some hvisit).1]
  · rename_i hvisit
    simp [Table.visit_eq_none_iff.mp hvisit]

theorem nextStep_takingBalance {sale : Sale}
    (hphase : state.calls call = .takingBalance sale) (occurredAt now : Nat) :
    (nextStep state call occurredAt now).isSome = true ↔
      state.users.lockable call sale.purchase.userId = true := by
  have hopen : state.isOpen call = true := by simp [State.isOpen, hphase, Phase.isOpen]
  by_cases hfails : fails state call = true
  · refine iff_of_true (nextStep_of_fails hfails hopen occurredAt now) ?_
    simp only [fails, hphase] at hfails
    split at hfails
    · rename_i users hvisit
      exact (Table.visit_eq_some hvisit).1
    · cases hfails
  · rw [nextStep_of_not_fails hfails, hphase, Phase.statement, Option.bind_some, step]
    simp only [takeBalance, hphase]
    split
    · rename_i users hvisit
      obtain ⟨user, hview⟩ := Table.exists_view_of_visit hvisit
      simp only [fails, hphase, hvisit, hview, Option.any_some, Bool.not_eq_true',
        Bool.not_eq_false]
        at hfails
      simp [hview, hfails, (Table.visit_eq_some hvisit).1]
    · rename_i users hvisit
      simp [(Table.visit_eq_some hvisit).1]
    · rename_i hvisit
      simp [Table.visit_eq_none_iff.mp hvisit]

/-- The other statements have nobody to wait for. -/
theorem nextStep_of_asks (hopen : state.isOpen call = true)
    (hasks : ∀ row, ⟨row, .noKeyUpdate⟩ ∉ (state.calls call).asks) (occurredAt now : Nat) :
    (nextStep state call occurredAt now).isSome = true := by
  by_cases hfails : fails state call = true
  · exact nextStep_of_fails hfails hopen occurredAt now
  rw [nextStep_of_not_fails hfails]
  rw [State.isOpen] at hopen
  cases hphase : state.calls call with
  | idle | returned | threw => simp [hphase, Phase.isOpen] at hopen
  | takingStock | takingBalance => simp [hphase, Phase.asks] at hasks
  | began purchase =>
      simp only [fails, hphase, Bool.not_eq_true', Bool.not_eq_false] at hfails
      rw [Phase.statement, Option.bind_some, step]
      simp only [scanProducts, hphase, hfails, if_true]
      split <;> rfl
  | charging sale =>
      simp only [fails, hphase, Bool.not_eq_true', Bool.not_eq_false] at hfails
      rw [Phase.statement, Option.bind_some, step]
      simp only [scanUsers, hphase, hfails, if_true]
      split <;> rfl
  | saving => simp [Phase.statement, step, saveOrder, hphase]
  | savingItem => simp [Phase.statement, step, saveItem, hphase]
  | savingJob => simp [Phase.statement, step, saveJob, hphase]
  | enqueuing => simp [Phase.statement, step, enqueue, hphase]
  | committing => simp [Phase.statement, step, commit, hphase]

theorem Inv.enabled (hinv : Inv shop state) (hopen : state.isOpen call = true)
    (occurredAt now : Nat) :
    (nextStep state call occurredAt now).isSome = true ↔
    ∀ holder, ¬ WaitsFor state call holder := by
  by_cases hasks : ∀ row, ⟨row, .noKeyUpdate⟩ ∉ (state.calls call).asks
  · exact iff_of_true (nextStep_of_asks hopen hasks occurredAt now) (hinv.free_of_asks hasks)
  · push Not at hasks
    obtain ⟨row, hask⟩ := hasks
    cases hphase : state.calls call with
    | takingStock purchase =>
        rw [nextStep_takingStock hphase, hinv.free_iff_product_lockable hphase]
    | takingBalance sale =>
        rw [nextStep_takingBalance hphase, hinv.free_iff_user_lockable hphase]
    | _ => simp [hphase, Phase.asks] at hask

theorem Phase.isOpen_of_locks {lock : RowLock} (hlock : lock ∈ phase.locks) :
    phase.isOpen = true := by
  cases phase with
  | idle | returned | threw =>
      simp [Phase.locks, Phase.stockTaken, Phase.balanceTaken, Phase.checked] at hlock
  | _ => rfl

theorem Inv.isOpen_of_waits (hinv : Inv shop state) (hwaits : WaitsFor state waiter holder) :
    state.isOpen holder = true := by
  obtain ⟨row, -, hholds⟩ := hinv.exists_update_of_waits hwaits
  rw [hinv.holds_iff LockMode.noConfusion] at hholds
  exact Phase.isOpen_of_locks hholds

theorem Inv.progress (hinv : Inv shop state) (hopen : state.isOpen call = true) :
    ∃ last, ReflTransGen (WaitsFor state) call last ∧ state.isOpen last = true ∧
      ∀ occurredAt now, (nextStep state last occurredAt now).isSome = true := by
  have hbound : ∀ row : RowId, row.rank ≤ 2 := by
    intro row
    cases row <;> simp [RowId.rank]
  obtain ⟨last, hpath, hfree⟩ := hinv.ranked.exists_free hbound call
  have hlast : state.isOpen last = true := by
    rcases ReflTransGen.cases_tail hpath with rfl | ⟨before, -, hwaits⟩
    · exact hopen
    · exact hinv.isOpen_of_waits hwaits
  exact ⟨last, hpath, hlast, fun occurredAt now => (hinv.enabled hlast occurredAt now).mpr hfree⟩

/-- Checkouts never wait for each other in a circle. -/
theorem checkout_deadlockFree (shop : Shop) {state : State}
    (hreach : Reachable step (State.init shop) state) : DeadlockFree state := by
  have hinv := inv_reach hreach
  exact
    { locks := fun _ _ _ _ hstep hopen hmode =>
        holds_step hinv (inv_reach (hreach.tail hstep)) hstep hopen hmode
      acyclic := hinv.ranked.no_circle
      enabled := fun _ occurredAt now hopen => hinv.enabled hopen occurredAt now
      progress := fun _ hopen => hinv.progress hopen }

/-- Two products, two users. -/
def cornerShop : Shop :=
  Shop.ofRows [(3, ⟨100, 5⟩), (4, ⟨50, 2⟩)] [(7, ⟨"a@shop.test", 1000⟩), (8, ⟨"b@shop.test", 300⟩)]
    (by decide) (by decide)

/-- The third call waits for the product of the second, which waits for the user of the first. -/
def chainTrace : List Action :=
  [.checkout 0 7 3 (.integer 1), .checkout 1 7 4 (.integer 1), .checkout 2 8 4 (.integer 1),
    .scanProducts 0, .takeStock 0, .scanUsers 0, .scanProducts 1, .scanProducts 2, .takeStock 1,
    .scanUsers 1, .takeBalance 0, .saveOrder 0]

theorem checkout_deadlockFree_chain : ∃ state, Reachable step (State.init cornerShop) state ∧
    (WaitsFor state 2 1 ∧ WaitsFor state 1 0) ∧ DeadlockFree state := by
  obtain ⟨state, hreach, hcheck⟩ : ∃ state, Reachable step (State.init cornerShop) state ∧
      decide ((state.calls 2).asks = [⟨.product 4, .noKeyUpdate⟩] ∧
        (state.products.cell 4).held = some (1, some ⟨50, 1⟩) ∧
        (state.calls 1).asks = [⟨.user 7, .noKeyUpdate⟩] ∧
        (state.users.cell 7).held = some (0, some ⟨"a@shop.test", 900⟩)) = true :=
    exists_reach_of_runWithin chainTrace (by decide +kernel)
  obtain ⟨hstock, hproduct, hbalance, huser⟩ := of_decide_eq_true hcheck
  have hfirst : WaitsFor state 2 1 :=
    waitsFor_of_holds (by decide) hstock (.product 4 _ hproduct)
  have hsecond : WaitsFor state 1 0 :=
    waitsFor_of_holds (by decide) hbalance (.user 7 _ huser)
  exact ⟨state, hreach, ⟨hfirst, hsecond⟩, checkout_deadlockFree cornerShop hreach⟩

end Marketplace.Checkout
