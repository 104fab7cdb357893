import Marketplace.Checkout.Rows

/-!
# Money and stock are conserved

What a call has taken from stock and balance is, when it commits, what its item and its order say.
So the committed levels and the committed rows move together.
-/

namespace Marketplace.Checkout

open ReadCommitted Transition

variable {shop : Shop} {before after state : State} {action : Action} {call : Call} {phase : Phase}

def Phase.stockTaken : Phase → Option (ProductId × Int)
  | charging sale | takingBalance sale | saving sale _ | savingItem sale _ | savingJob sale _
  | enqueuing sale _ | committing sale _ => some (sale.purchase.productId, sale.purchase.quantity)
  | _ => none

def Phase.balanceTaken : Phase → Option (UserId × Int)
  | saving sale _ | savingItem sale _ | savingJob sale _ | enqueuing sale _ | committing sale _ =>
      some (sale.purchase.userId, sale.totalCents)
  | _ => none

/-- The sum of the quantities of the committed items of a product. -/
def State.sold (state : State) (productId : ProductId) : Int :=
  state.orderItems.total state.isOpen (fun item => item.productId = productId) OrderItem.quantity

/-- The sum of the totals of the committed orders of a user. -/
def State.spent (state : State) (userId : UserId) : Int :=
  state.orders.total state.isOpen (fun order => order.userId = userId) Order.totalCents

structure Inv (shop : Shop) (state : State) : Prop where
  rows : RowsInv state
  products : Guarded stock state.products (Phase.stockTaken ∘ state.calls)
  users : Guarded balance state.users (Phase.balanceTaken ∘ state.calls)
  stock : Conserved stock shop.products state.products state.sold
  balance : Conserved balance shop.users state.users state.spent

theorem inv_init (shop : Shop) : Inv shop (State.init shop) where
  rows := rowsInv_init shop
  products := Guarded.init shop.quietProducts
  users := Guarded.init shop.quietUsers
  stock productId product hproduct :=
    ⟨product, hproduct, (Int.add_zero _).symm, shop.stock_nonneg productId product hproduct⟩
  balance userId user huser :=
    ⟨user, huser, (Int.add_zero _).symm, shop.balance_nonneg userId user huser⟩

theorem Inv.stockGuarded (hinv : Inv shop before) {next : Phase}
    (hphase : before.calls call = phase) (htaken : next.stockTaken = phase.stockTaken) :
    Guarded Checkout.stock before.products
      (Phase.stockTaken ∘ Function.update before.calls call next) := by
  have hsame : Phase.stockTaken ∘ Function.update before.calls call next =
      Phase.stockTaken ∘ before.calls := by
    rw [Function.comp_update, htaken, ← hphase]
    exact Function.update_eq_self call (Phase.stockTaken ∘ before.calls)
  rw [hsame]
  exact hinv.products

theorem Inv.balanceGuarded (hinv : Inv shop before) {next : Phase}
    (hphase : before.calls call = phase) (htaken : next.balanceTaken = phase.balanceTaken) :
    Guarded Checkout.balance before.users
      (Phase.balanceTaken ∘ Function.update before.calls call next) := by
  have hsame : Phase.balanceTaken ∘ Function.update before.calls call next =
      Phase.balanceTaken ∘ before.calls := by
    rw [Function.comp_update, htaken, ← hphase]
    exact Function.update_eq_self call (Phase.balanceTaken ∘ before.calls)
  rw [hsame]
  exact hinv.users

/-- A step that leaves everything that is committed as it is. -/
theorem Inv.of_visible (hinv : Inv shop before) (hrows : RowsInv after)
    (hvisible : after.visible = before.visible)
    (hproducts : Guarded Checkout.stock after.products (Phase.stockTaken ∘ after.calls))
    (husers : Guarded Checkout.balance after.users (Phase.balanceTaken ∘ after.calls)) :
    Inv shop after where
  rows := hrows
  products := hproducts
  users := husers
  stock := by
    apply hinv.stock.congr (congrFun (congrArg Visible.products hvisible))
    intro productId
    have hitems : after.orderItems.committed after.isOpen =
        before.orderItems.committed before.isOpen := congrArg Visible.orderItems hvisible
    unfold State.sold Inserts.total
    rw [hitems]
  balance := by
    apply hinv.balance.congr (congrFun (congrArg Visible.users hvisible))
    intro userId
    have horders : after.orders.committed after.isOpen = before.orders.committed before.isOpen :=
      congrArg Visible.orders hvisible
    unfold State.spent Inserts.total
    rw [horders]

/-- What a COMMIT adds to the sums. -/
theorem Inv.sold_commit (hinv : Inv shop before) {sale : Sale} {order : Order}
    (hphase : before.calls call = .committing sale order)
    (hcalls : after.calls = Function.update before.calls call (.returned sale order))
    (hitems : after.orderItems = before.orderItems) (productId : ProductId) :
    after.sold productId = before.sold productId +
      if sale.purchase.productId = productId then sale.purchase.quantity else 0 := by
  have hopen : before.isOpen call = true := by
    rw [State.isOpen, hphase]
    rfl
  have hwritten : before.orderItems.ofTx call = [sale.item order] := by
    have hok := hinv.rows.items call
    rwa [hphase] at hok
  unfold State.sold
  rw [hitems, Inserts.total_commit _ _ hopen (isOpen_call hcalls)
    (fun other hne => isOpen_of_calls hcalls hne), hwritten]
  by_cases heq : sale.purchase.productId = productId <;> simp [Sale.item, heq]

theorem Inv.spent_commit (hinv : Inv shop before) {sale : Sale} {order : Order}
    (hphase : before.calls call = .committing sale order)
    (hcalls : after.calls = Function.update before.calls call (.returned sale order))
    (horders : after.orders = before.orders) (userId : UserId) :
    after.spent userId = before.spent userId +
      if sale.purchase.userId = userId then sale.totalCents else 0 := by
  have hopen : before.isOpen call = true := by
    rw [State.isOpen, hphase]
    rfl
  have hwritten : before.orders.ofTx call = [order] := by
    have hok := hinv.rows.orders call
    rwa [hphase] at hok
  obtain ⟨id, customerEmail, rfl⟩ := hinv.rows.made call sale order (by rw [hphase]; rfl)
  unfold State.spent
  rw [horders, Inserts.total_commit _ _ hopen (isOpen_call hcalls)
    (fun other hne => isOpen_of_calls hcalls hne), hwritten]
  by_cases heq : sale.purchase.userId = userId <;> simp [Sale.order, heq]

theorem Inv.commit (hinv : Inv shop before) {sale : Sale} {order : Order}
    (hphase : before.calls call = .committing sale order) (hrows : RowsInv after)
    (hcalls : after.calls = Function.update before.calls call (.returned sale order))
    (hproducts : after.products = before.products.commit call)
    (husers : after.users = before.users.commit call)
    (horders : after.orders = before.orders) (hitems : after.orderItems = before.orderItems) :
    Inv shop after where
  rows := hrows
  products := by
    rw [hcalls, hproducts, Function.comp_update]
    exact hinv.products.commit
  users := by
    rw [hcalls, husers, Function.comp_update]
    exact hinv.users.commit
  stock := by
    rw [hproducts]
    have hsold := hinv.sold_commit hphase hcalls hitems
    apply hinv.products.conserved_commit hinv.stock
    · rw [Function.comp_apply, hphase]
      rfl
    · rw [hsold, if_pos rfl]
    · intro other hne
      rw [hsold, if_neg hne.symm, Int.add_zero]
  balance := by
    rw [husers]
    have hspent := hinv.spent_commit hphase hcalls horders
    apply hinv.users.conserved_commit hinv.balance
    · rw [Function.comp_apply, hphase]
      rfl
    · rw [hspent, if_pos rfl]
    · intro other hne
      rw [hspent, if_neg hne.symm, Int.add_zero]

/-- Nothing that is committed changes, except by the COMMIT of a call that returns. -/
theorem visible_step (hinv : Inv shop before) (hphase : before.calls call = phase)
    (hruns : Runs before action call phase after) :
    after.visible = before.visible ∨
      ∃ sale order, action = .commit call ∧ after.calls call = .returned sale order := by
  have hopen : phase.isOpen = true → before.isOpen call = true := by
    rintro hopen
    rwa [State.isOpen, hphase]
  cases hruns with
  | committed sale order haction =>
      exact .inr ⟨sale, order, haction, Function.update_self ..⟩
  | began purchase =>
      exact .inl (visible_goto hphase hinv.rows rfl (fun _ => rfl) (fun _ => rfl) rfl rfl rfl rfl
        (.inr rfl))
  | tookStock purchase priceCents products hvisit =>
      have hnone : (Phase.stockTaken ∘ before.calls) call = none := by
        rw [Function.comp_apply, hphase]
        rfl
      have hcommitted := (hinv.products.take hnone hvisit).2
      exact .inl (visible_goto hphase hinv.rows rfl hcommitted (fun _ => rfl) rfl rfl rfl rfl
        (.inl rfl))
  | tookBalance sale customerEmail users hvisit =>
      have hnone : (Phase.balanceTaken ∘ before.calls) call = none := by
        rw [Function.comp_apply, hphase]
        rfl
      have hcommitted := (hinv.users.take hnone hvisit).2
      exact .inl (visible_goto hphase hinv.rows rfl (fun _ => rfl) hcommitted rfl rfl rfl rfl
        (.inl rfl))
  | savedOrder sale customerEmail =>
      exact .inl (visible_insert (hopen rfl) rfl (.inr ⟨_, rfl⟩) (.inl rfl) (.inl rfl) (.inl rfl))
  | savedItem sale order =>
      exact .inl (visible_insert (hopen rfl) rfl (.inl rfl) (.inr ⟨_, rfl⟩) (.inl rfl) (.inl rfl))
  | savedJob sale order =>
      exact .inl (visible_insert (hopen rfl) rfl (.inl rfl) (.inl rfl) (.inr ⟨_, rfl⟩) (.inl rfl))
  | enqueued sale order occurredAt now =>
      exact .inl (visible_insert (hopen rfl) rfl (.inl rfl) (.inl rfl) (.inl rfl) (.inr ⟨_, rfl⟩))
  | aborted phase error hopen' => exact .inl (visible_rollback (hopen hopen') error)
  | _ =>
      exact .inl (visible_goto hphase hinv.rows rfl (fun _ => rfl) (fun _ => rfl) rfl rfl rfl rfl
        (.inl rfl))

theorem Inv.step (hinv : Inv shop before) (hphase : before.calls call = phase)
    (hruns : Runs before action call phase after) : Inv shop after := by
  have hrows := hinv.rows.step hphase hruns
  rcases visible_step hinv hphase hruns with hvisible | ⟨_, _, haction, hreturned⟩
  case inr =>
    cases hruns with
    | committed sale order _ => exact hinv.commit hphase hrows rfl rfl rfl rfl rfl
    | _ => simp [State.goto, State.rollback] at hreturned
  apply hinv.of_visible hrows hvisible
  · cases hruns with
    | tookStock purchase priceCents products hvisit =>
        rw [State.goto, Function.comp_update]
        exact (hinv.products.take (by rw [Function.comp_apply, hphase]; rfl) hvisit).1
    | committed sale order _ =>
        rw [State.goto, Function.comp_update]
        exact hinv.products.commit
    | aborted phase error hopen =>
        rw [State.rollback, Function.comp_update]
        exact hinv.products.rollback
    | _ => exact hinv.stockGuarded hphase rfl
  · cases hruns with
    | tookBalance sale customerEmail users hvisit =>
        rw [State.goto, Function.comp_update]
        exact (hinv.users.take (by rw [Function.comp_apply, hphase]; rfl) hvisit).1
    | committed sale order _ =>
        rw [State.goto, Function.comp_update]
        exact hinv.users.commit
    | aborted phase error hopen =>
        rw [State.rollback, Function.comp_update]
        exact hinv.users.rollback
    | _ => exact hinv.balanceGuarded hphase rfl

theorem inv_reach (hreach : Reachable step (State.init shop) state) : Inv shop state := by
  refine Reach.invariant (Inv shop) (inv_init shop) ?_ hreach
  intro before action after _ hinv _ hstep
  obtain ⟨call, phase, hphase, hruns⟩ := step_runs hstep
  exact hinv.step hphase hruns

/-! ### What a run leaves of stock and balances -/

/-- The call has returned or thrown. -/
def Phase.isOver : Phase → Bool
  | returned _ _ | threw _ => true
  | _ => false

structure Consistent (shop : Shop) (state : State) : Prop where
  stock : ∀ productId product, shop.products.committed productId = some product →
    ∃ current, state.products.committed productId = some current ∧
      product.stock = current.stock + state.sold productId ∧ 0 ≤ current.stock
  balance : ∀ userId user, shop.users.committed userId = some user →
    ∃ current, state.users.committed userId = some current ∧
      user.balanceCents = current.balanceCents + state.spent userId ∧ 0 ≤ current.balanceCents
  /-- Each committed order comes with one item, one job and one outbox row. -/
  complete : ∀ entry ∈ state.visible.orders,
    (state.visible.orderItems.filter fun item => item.2.orderId = entry.2.id).length = 1 ∧
    (state.visible.postProcessingJobs.filter fun job => job.2.orderId = entry.2.id).length = 1 ∧
    (state.visible.outbox.filter fun row => row.2.aggregateId = decimal entry.2.id).length = 1
  /-- Only the COMMIT of a call that returns changes anything. -/
  unchanged : ∀ action after, step state action = some after → after.visible = state.visible ∨
    ∃ call sale order, action = .commit call ∧ after.calls call = .returned sale order
  ended : ∀ call action after, (state.calls call).isOver = true → step state action = some after →
    after.calls call = state.calls call
  /-- A call that has thrown has left no row and no lock. -/
  thrown : ∀ call error, state.calls call = .threw error →
    (state.orders.ofTx call = [] ∧ state.orderItems.ofTx call = [] ∧
      state.postProcessingJobs.ofTx call = [] ∧ state.outbox.ofTx call = []) ∧
    (∀ productId version, (state.products.cell productId).held ≠ some (call, version)) ∧
    ∀ userId version, (state.users.cell userId).held ≠ some (call, version)

theorem Runs.calls_of_ne {other : Call} (hruns : Runs before action call phase after)
    (hne : other ≠ call) : after.calls other = before.calls other := by
  cases hruns <;> exact Function.update_of_ne hne _ _

theorem Runs.calls_of_over {other : Call} (hruns : Runs before action call phase after)
    (hphase : before.calls call = phase) (hover : (before.calls other).isOver = true) :
    after.calls other = before.calls other := by
  apply hruns.calls_of_ne
  rintro rfl
  rw [hphase] at hover
  cases hruns with
  | aborted phase error hopen => cases phase <;> simp [Phase.isOpen, Phase.isOver] at hopen hover
  | _ => cases hover

theorem returned_of_placed (hclosed : phase.isOpen = false) {sale : Sale} {order : Order}
    (hplaced : phase.placed = some (sale, order)) : phase = .returned sale order := by
  cases phase with
  | returned sale' order' =>
      cases hplaced
      rfl
  | savingItem | savingJob | enqueuing | committing => cases hclosed
  | _ => cases hplaced

theorem RowsInv.returned_of_mem (hinv : RowsInv state) {order : Order}
    (hentry : (call, order) ∈ state.visible.orders) :
    ∃ sale, state.calls call = .returned sale order := by
  obtain ⟨hmem, hclosed⟩ := List.mem_filter.mp hentry
  have hok := hinv.orders call
  rw [← Inserts.mem_ofTx, hok, Option.mem_toList, Option.map_eq_some_iff] at hmem
  obtain ⟨⟨sale, order'⟩, hplaced, rfl⟩ := hmem
  exact ⟨sale, returned_of_placed (by simpa [State.isOpen] using hclosed) hplaced⟩

theorem RowsInv.mem_of_placed (hinv : RowsInv state) {sale : Sale} {order : Order}
    (hplaced : (state.calls call).placed = some (sale, order)) : (call, order) ∈ state.orders := by
  have hok := hinv.orders call
  rw [← Inserts.mem_ofTx, hok, hplaced]
  exact List.mem_singleton.mpr rfl

/-- An order that two calls name is the row of one call. -/
theorem RowsInv.call_of_order (hinv : RowsInv state) {sale : Sale} {order order' : Order}
    {other : Call} (hplaced : (state.calls call).placed = some (sale, order))
    (hrow : (other, order') ∈ state.orders) (hid : order.id = order'.id) : call = other :=
  congrArg Prod.fst (List.inj_on_of_nodup_map hinv.unique (hinv.mem_of_placed hplaced) hrow hid)

/-- One committed row for each committed order, in a table where each call that has placed an order
writes one row that names it. -/
theorem RowsInv.length_filter {Row Name : Type} [DecidableEq Name] {rows : Inserts Call Row}
    {expected : Phase → List Row → Prop} {order : Order} (nameOf : Row → Name)
    (name : OrderId → Name) (hinv : RowsInv state) (htracks : rows.Tracks expected state.calls)
    (hname : Function.Injective name)
    (hwritten : ∀ phase written, expected phase written → written ≠ [] →
      ∃ sale order, phase.placed = some (sale, order))
    (hreturned : ∀ sale order written, expected (.returned sale order) written →
      ∃ row, written = [row] ∧ nameOf row = name order.id)
    (hentry : (call, order) ∈ state.visible.orders) :
    ((rows.committed state.isOpen).filter fun entry => nameOf entry.2 =
      name order.id).length = 1 := by
  obtain ⟨sale, hphase⟩ := hinv.returned_of_mem hentry
  have hclosed : state.isOpen call = false := by
    rw [State.isOpen, hphase]
    rfl
  have hown := htracks call
  rw [hphase] at hown
  obtain ⟨row, hrow, hrowName⟩ := hreturned sale order _ hown
  rw [Inserts.filter_eq_singleton (rows.committed state.isOpen)
    (fun row => nameOf row = name order.id) ((Inserts.ofTx_committed hclosed).trans hrow)]
  · rfl
  · rintro ⟨owner, other⟩ hother
    obtain ⟨hmem, hownerClosed⟩ := List.mem_filter.mp hother
    have hmem' := Inserts.mem_ofTx.mpr hmem
    have howner := htracks owner
    obtain ⟨sale', order', hplaced⟩ := hwritten _ _ howner (List.ne_nil_of_mem hmem')
    have hphase' := returned_of_placed (by simpa [State.isOpen] using hownerClosed) hplaced
    rw [hphase'] at howner
    obtain ⟨row', hrow', hrowName'⟩ := hreturned sale' order' _ howner
    obtain rfl : other = row' := by
      rw [hrow'] at hmem'
      exact List.mem_singleton.mp hmem'
    rw [decide_eq_true_eq, hrowName']
    constructor
    · intro hid
      have hrow : (call, order) ∈ state.orders := by
        apply hinv.mem_of_placed
        rw [hphase]
        rfl
      exact hinv.call_of_order hplaced hrow (hname hid)
    · rintro rfl
      rw [hphase] at hphase'
      cases hphase'
      rfl

theorem RowsInv.complete (hinv : RowsInv state) {order : Order}
    (hentry : (call, order) ∈ state.visible.orders) :
    (state.visible.orderItems.filter fun item => item.2.orderId = order.id).length = 1 ∧
    (state.visible.postProcessingJobs.filter fun job => job.2.orderId = order.id).length = 1 ∧
    (state.visible.outbox.filter fun row => row.2.aggregateId = decimal order.id).length = 1 := by
  refine ⟨?_, ?_, ?_⟩
  · apply hinv.length_filter OrderItem.orderId id hinv.items Function.injective_id ?_ ?_ hentry
    · intro phase written hok hne
      cases phase with
      | savingJob | enqueuing | committing | returned => exact ⟨_, _, rfl⟩
      | _ => exact absurd hok hne
    · intro sale order written hok
      exact ⟨_, hok, rfl⟩
  · apply hinv.length_filter PostProcessingJob.orderId id hinv.jobs Function.injective_id ?_ ?_
      hentry
    · intro phase written hok hne
      cases phase with
      | enqueuing | committing | returned => exact ⟨_, _, rfl⟩
      | _ => exact absurd hok hne
    · intro sale order written hok
      exact ⟨_, hok, rfl⟩
  · apply hinv.length_filter OutboxRow.aggregateId (fun id => decimal id) hinv.outbox
      (fun _ _ => decimal_nat_injective) ?_ ?_ hentry
    · intro phase written hok hne
      cases phase with
      | committing | returned => exact ⟨_, _, rfl⟩
      | _ => exact absurd hok hne
    · rintro sale order written ⟨occurredAt, now, hrows⟩
      exact ⟨_, hrows, rfl⟩

theorem Inv.thrown (hinv : Inv shop state) {error : CheckoutError}
    (hphase : state.calls call = .threw error) :
    (state.orders.ofTx call = [] ∧ state.orderItems.ofTx call = [] ∧
      state.postProcessingJobs.ofTx call = [] ∧ state.outbox.ofTx call = []) ∧
    (∀ productId version, (state.products.cell productId).held ≠ some (call, version)) ∧
    ∀ userId version, (state.users.cell userId).held ≠ some (call, version) := by
  have horders := hinv.rows.orders call
  have hitems := hinv.rows.items call
  have hjobs := hinv.rows.jobs call
  have houtbox := hinv.rows.outbox call
  rw [hphase] at horders hitems hjobs houtbox
  refine ⟨⟨horders, hitems, hjobs, houtbox⟩, ?_, ?_⟩
  · apply hinv.products.not_held
    rw [Function.comp_apply, hphase]
    rfl
  · apply hinv.users.not_held
    rw [Function.comp_apply, hphase]
    rfl

/-- Money and stock are conserved by `checkout`. -/
theorem checkout_conserves (shop : Shop) {state : State}
    (hreach : Reachable step (State.init shop) state) : Consistent shop state := by
  have hinv := inv_reach hreach
  refine
    { stock := hinv.stock
      balance := hinv.balance
      complete := fun _ => hinv.rows.complete
      unchanged := ?_
      ended := ?_
      thrown := fun _ _ => hinv.thrown }
  · intro action after hstep
    obtain ⟨call, phase, hphase, hruns⟩ := step_runs hstep
    exact (visible_step hinv hphase hruns).imp_right fun hcommit => ⟨call, hcommit⟩
  · intro other action after hover hstep
    obtain ⟨call, phase, hphase, hruns⟩ := step_runs hstep
    exact hruns.calls_of_over hphase hover

/-- One product with a stock of five. -/
def lampShop : Shop :=
  Shop.ofRows [(3, ⟨100, 5⟩)] [(7, ⟨"a@shop.test", 1000⟩), (8, ⟨"b@shop.test", 250⟩)]
    (by decide) (by decide)

/-- Both buyers find enough stock in their snapshots. The second waits for the first, finds too
little and throws; a third call fails at the outbox. -/
def raceTrace : List Action :=
  [.checkout 0 7 3 (.integer 2), .checkout 1 8 3 (.integer 4), .checkout 2 8 3 (.integer 1),
    .scanProducts 0, .scanProducts 1, .takeStock 0, .scanUsers 0, .takeBalance 0, .saveOrder 0,
    .saveItem 0, .saveJob 0, .enqueue 0 10 10, .commit 0, .takeStock 1, .scanProducts 2,
    .takeStock 2, .scanUsers 2, .takeBalance 2, .saveOrder 2, .saveItem 2, .saveJob 2, .abort 2]

theorem checkout_conserves_race : ∃ state, Reachable step (State.init lampShop) state ∧
    (state.products.committed 3 = some ⟨100, 3⟩ ∧
      state.calls 1 = .threw (.insufficientStock 3) ∧ state.sold 3 = 2) ∧
    Consistent lampShop state := by
  obtain ⟨state, hreach, hcheck⟩ : ∃ state, Reachable step (State.init lampShop) state ∧
      decide (state.products.committed 3 = some ⟨100, 3⟩ ∧
        state.calls 1 = .threw (.insufficientStock 3) ∧ state.sold 3 = 2) = true :=
    exists_reach_of_runWithin raceTrace (by decide +kernel)
  exact ⟨state, hreach, of_decide_eq_true hcheck, checkout_conserves lampShop hreach⟩

end Marketplace.Checkout
