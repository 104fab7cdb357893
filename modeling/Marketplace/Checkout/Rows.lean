import Marketplace.Checkout.Checkout

/-!
# The rows of a checkout

What a call has written follows from its phase, and only a COMMIT changes what others can read.
-/

namespace Marketplace.Checkout

open ReadCommitted Transition

variable {before after state : State} {action : Action} {call : Call} {phase : Phase}

/-- The order a call has inserted, with the sale it is for. -/
def Phase.placed : Phase → Option (Sale × Order)
  | savingItem sale order | savingJob sale order | enqueuing sale order | committing sale order
  | returned sale order => some (sale, order)
  | _ => none

def OrdersOk (phase : Phase) (orders : List Order) : Prop :=
  orders = (phase.placed.map Prod.snd).toList

def ItemsOk : Phase → List OrderItem → Prop
  | .savingJob sale order, items | .enqueuing sale order, items | .committing sale order, items
  | .returned sale order, items => items = [sale.item order]
  | _, items => items = []

def JobsOk : Phase → List PostProcessingJob → Prop
  | .enqueuing _ order, jobs | .committing _ order, jobs | .returned _ order, jobs =>
      jobs = [newJob order]
  | _, jobs => jobs = []

def OutboxOk : Phase → List OutboxRow → Prop
  | .committing sale order, rows | .returned sale order, rows =>
      ∃ occurredAt now, rows = [enqueueOrderPlaced (sale.eventData order) occurredAt now]
  | _, rows => rows = []

/-- Every order that is on its way is the one of its sale. -/
def Made (calls : Call → Phase) : Prop :=
  ∀ call sale order, (calls call).placed = some (sale, order) →
    ∃ id customerEmail, order = sale.order id customerEmail

theorem Made.update {calls : Call → Phase} {next : Phase} (hmade : Made calls)
    (hnext : ∀ sale order, next.placed = some (sale, order) →
      (calls call).placed = some (sale, order) ∨
        ∃ id customerEmail, order = sale.order id customerEmail) :
    Made (Function.update calls call next) := by
  intro other sale order hother
  by_cases heq : other = call
  · rw [heq, Function.update_self] at hother
    rcases hnext sale order hother with hold | hnew
    · exact hmade call sale order hold
    · exact hnew
  · rw [Function.update_of_ne heq] at hother
    exact hmade other sale order hother

structure RowsInv (state : State) : Prop where
  orders : state.orders.Tracks OrdersOk state.calls
  items : state.orderItems.Tracks ItemsOk state.calls
  jobs : state.postProcessingJobs.Tracks JobsOk state.calls
  outbox : state.outbox.Tracks OutboxOk state.calls
  ids : ∀ entry ∈ state.orders, entry.2.id < state.nextOrderId
  unique : (state.orders.map fun entry => entry.2.id).Nodup
  made : Made state.calls

theorem rowsInv_init (shop : Shop) : RowsInv (State.init shop) where
  orders _ := rfl
  items _ := rfl
  jobs _ := rfl
  outbox _ := rfl
  ids _ hentry := absurd hentry List.not_mem_nil
  unique := List.nodup_nil
  made _ _ _ hplaced := by cases hplaced

/-- A step that writes nothing. -/
theorem RowsInv.goto {next : Phase} (hinv : RowsInv before) (hphase : before.calls call = phase)
    (hcalls : after.calls = Function.update before.calls call next)
    (horders : after.orders = before.orders) (hitems : after.orderItems = before.orderItems)
    (hjobs : after.postProcessingJobs = before.postProcessingJobs)
    (houtbox : after.outbox = before.outbox) (hid : after.nextOrderId = before.nextOrderId)
    (hplaced : next.placed = phase.placed)
    (hitemsOk : ∀ items, ItemsOk phase items → ItemsOk next items)
    (hjobsOk : ∀ jobs, JobsOk phase jobs → JobsOk next jobs)
    (houtboxOk : ∀ rows, OutboxOk phase rows → OutboxOk next rows) : RowsInv after where
  orders := by
    rw [hcalls, horders]
    apply hinv.orders.keep
    intro written hwritten
    rwa [OrdersOk, hplaced, ← hphase]
  items := by
    rw [hcalls, hitems]
    exact hinv.items.keep (hphase ▸ hitemsOk)
  jobs := by
    rw [hcalls, hjobs]
    exact hinv.jobs.keep (hphase ▸ hjobsOk)
  outbox := by
    rw [hcalls, houtbox]
    exact hinv.outbox.keep (hphase ▸ houtboxOk)
  ids := by
    rw [horders, hid]
    exact hinv.ids
  unique := by
    rw [horders]
    exact hinv.unique
  made := by
    rw [hcalls]
    apply hinv.made.update
    intro sale order hnext
    rw [hplaced, ← hphase] at hnext
    exact .inl hnext

theorem RowsInv.rollback (hinv : RowsInv before) (error : CheckoutError) :
    RowsInv (before.rollback call error) where
  orders := hinv.orders.rollback rfl
  items := hinv.items.rollback rfl
  jobs := hinv.jobs.rollback rfl
  outbox := hinv.outbox.rollback rfl
  ids entry hentry := hinv.ids entry (List.mem_of_mem_filter hentry)
  unique := hinv.unique.sublist (List.Sublist.map _ List.filter_sublist)
  made := hinv.made.update nofun

theorem RowsInv.saveOrder (hinv : RowsInv before) {sale : Sale} {customerEmail : String}
    (hphase : before.calls call = .saving sale customerEmail) :
    RowsInv { (before.goto call
      (.savingItem sale (sale.order before.nextOrderId customerEmail))) with
      orders := before.orders.insert call (sale.order before.nextOrderId customerEmail)
      nextOrderId := before.nextOrderId + 1 } where
  orders := by
    apply hinv.orders.insert
    intro written hwritten
    rw [hphase] at hwritten
    rw [show written = [] from hwritten]
    rfl
  items := by
    apply hinv.items.keep
    rw [hphase]
    exact fun _ => id
  jobs := by
    apply hinv.jobs.keep
    rw [hphase]
    exact fun _ => id
  outbox := by
    apply hinv.outbox.keep
    rw [hphase]
    exact fun _ => id
  ids entry hentry := by
    rcases List.mem_append.mp hentry with hold | hnew
    · exact Nat.lt_succ_of_lt (hinv.ids entry hold)
    · rw [List.mem_singleton.mp hnew]
      exact Nat.lt_succ_self _
  unique := by
    change (List.map _ (before.orders ++ [_])).Nodup
    rw [List.map_append, List.nodup_append]
    refine ⟨hinv.unique, List.nodup_singleton _, ?_⟩
    intro id hold id' hnew heq
    obtain ⟨entry, hentry, rfl⟩ := List.mem_map.mp hold
    have hlt := hinv.ids entry hentry
    have hfresh : id' = before.nextOrderId := List.mem_singleton.mp hnew
    rw [heq, hfresh] at hlt
    exact Nat.lt_irrefl _ hlt
  made := by
    apply hinv.made.update
    intro sale' order hnext
    cases hnext
    exact .inr ⟨_, customerEmail, rfl⟩

theorem RowsInv.step (hinv : RowsInv before) (hphase : before.calls call = phase)
    (hruns : Runs before action call phase after) : RowsInv after := by
  have hmade : ∀ {next : Phase}, next.placed = phase.placed →
      Made (Function.update before.calls call next) := by
    intro next hplaced
    apply hinv.made.update
    intro sale order hnext
    rw [hplaced, ← hphase] at hnext
    exact .inl hnext
  cases hruns with
  | savedOrder sale customerEmail => exact hinv.saveOrder hphase
  | savedItem sale order =>
      refine ⟨hinv.orders.keep ?_, hinv.items.insert ?_, hinv.jobs.keep ?_, hinv.outbox.keep ?_,
        hinv.ids, hinv.unique, hmade rfl⟩ <;> rw [hphase]
      · exact fun _ => id
      · intro written hwritten
        rw [show written = [] from hwritten]
        rfl
      · exact fun _ => id
      · exact fun _ => id
  | savedJob sale order =>
      refine ⟨hinv.orders.keep ?_, hinv.items.keep ?_, hinv.jobs.insert ?_, hinv.outbox.keep ?_,
        hinv.ids, hinv.unique, hmade rfl⟩ <;> rw [hphase]
      · exact fun _ => id
      · exact fun _ => id
      · intro written hwritten
        rw [show written = [] from hwritten]
        rfl
      · exact fun _ => id
  | enqueued sale order occurredAt now =>
      refine ⟨hinv.orders.keep ?_, hinv.items.keep ?_, hinv.jobs.keep ?_, hinv.outbox.insert ?_,
        hinv.ids, hinv.unique, hmade rfl⟩ <;> rw [hphase]
      · exact fun _ => id
      · exact fun _ => id
      · exact fun _ => id
      · intro written hwritten
        rw [show written = [] from hwritten]
        exact ⟨occurredAt, now, rfl⟩
  | aborted phase error hopen => exact hinv.rollback error
  | _ =>
      exact hinv.goto hphase rfl rfl rfl rfl rfl rfl rfl (fun _ => id) (fun _ => id) fun _ => id

/-! ### What others can read -/

/-- Everything that is committed. -/
@[ext]
structure Visible where
  products : ProductId → Option Product
  users : UserId → Option User
  orders : List (Call × Order)
  orderItems : List (Call × OrderItem)
  postProcessingJobs : List (Call × PostProcessingJob)
  outbox : List (Call × OutboxRow)

def State.visible (state : State) : Visible where
  products := state.products.committed
  users := state.users.committed
  orders := state.orders.committed state.isOpen
  orderItems := state.orderItems.committed state.isOpen
  postProcessingJobs := state.postProcessingJobs.committed state.isOpen
  outbox := state.outbox.committed state.isOpen

theorem isOpen_of_calls {next : Phase}
    (hcalls : after.calls = Function.update before.calls call next) {other : Call}
    (hne : other ≠ call) : after.isOpen other = before.isOpen other := by
  rw [State.isOpen, State.isOpen, hcalls, Function.update_of_ne hne]

theorem isOpen_call {next : Phase} (hcalls : after.calls = Function.update before.calls call next) :
    after.isOpen call = next.isOpen := by
  rw [State.isOpen, hcalls, Function.update_self]

/-- A step without an insert that does not end a transaction. -/
theorem visible_goto {next : Phase} (hphase : before.calls call = phase) (hinv : RowsInv before)
    (hcalls : after.calls = Function.update before.calls call next)
    (hproducts : ∀ key, after.products.committed key = before.products.committed key)
    (husers : ∀ key, after.users.committed key = before.users.committed key)
    (horders : after.orders = before.orders) (hitems : after.orderItems = before.orderItems)
    (hjobs : after.postProcessingJobs = before.postProcessingJobs)
    (houtbox : after.outbox = before.outbox)
    (hopen : next.isOpen = phase.isOpen ∨ phase = .idle) : after.visible = before.visible := by
  have hsame : ∀ other, other ≠ call → after.isOpen other = before.isOpen other :=
    fun other hne => isOpen_of_calls hcalls hne
  have hcall : after.isOpen call = before.isOpen call ∨ before.calls call = .idle := by
    rw [isOpen_call hcalls, State.isOpen, hphase]
    exact hopen
  apply Visible.ext (funext hproducts) (funext husers)
  · change after.orders.committed _ = _
    rw [horders]
    refine Inserts.committed_keep (hcall.imp_right fun hidle => ?_) hsame
    have hnone := hinv.orders call
    rwa [hidle] at hnone
  · change after.orderItems.committed _ = _
    rw [hitems]
    refine Inserts.committed_keep (hcall.imp_right fun hidle => ?_) hsame
    have hnone := hinv.items call
    rwa [hidle] at hnone
  · change after.postProcessingJobs.committed _ = _
    rw [hjobs]
    refine Inserts.committed_keep (hcall.imp_right fun hidle => ?_) hsame
    have hnone := hinv.jobs call
    rwa [hidle] at hnone
  · change after.outbox.committed _ = _
    rw [houtbox]
    refine Inserts.committed_keep (hcall.imp_right fun hidle => ?_) hsame
    have hnone := hinv.outbox call
    rwa [hidle] at hnone

theorem visible_rollback (hopen : before.isOpen call = true) (error : CheckoutError) :
    (before.rollback call error).visible = before.visible := by
  have hsame : ∀ other, other ≠ call →
      (before.rollback call error).isOpen other = before.isOpen other :=
    fun other hne => isOpen_of_calls rfl hne
  apply Visible.ext
  · funext key
    exact Table.committed_rollback
  · funext key
    exact Table.committed_rollback
  · exact Inserts.committed_rollback hopen hsame
  · exact Inserts.committed_rollback hopen hsame
  · exact Inserts.committed_rollback hopen hsame
  · exact Inserts.committed_rollback hopen hsame

/-- A transaction that stays open: the rows it inserts are not visible. -/
theorem visible_insert {next : Phase} {orders : Inserts Call Order}
    {orderItems : Inserts Call OrderItem} {jobs : Inserts Call PostProcessingJob}
    {outbox : Inserts Call OutboxRow} {nextOrderId : OrderId} (hbefore : before.isOpen call = true)
    (hnext : next.isOpen = true)
    (horders : orders = before.orders ∨ ∃ row, orders = before.orders.insert call row)
    (hitems : orderItems = before.orderItems ∨
      ∃ row, orderItems = before.orderItems.insert call row)
    (hjobs : jobs = before.postProcessingJobs ∨
      ∃ row, jobs = before.postProcessingJobs.insert call row)
    (houtbox : outbox = before.outbox ∨ ∃ row, outbox = before.outbox.insert call row) :
    State.visible
        { (before.goto call next) with
          orders := orders
          orderItems := orderItems
          postProcessingJobs := jobs
          outbox := outbox
          nextOrderId := nextOrderId } = before.visible := by
  have hisOpen : (before.goto call next).isOpen = before.isOpen := by
    funext other
    by_cases heq : other = call
    · rw [heq, isOpen_call rfl, hnext, hbefore]
    · exact isOpen_of_calls rfl heq
  have hrows : ∀ {Row : Type} {rows rows' : Inserts Call Row},
      (rows' = rows ∨ ∃ row, rows' = rows.insert call row) →
      rows'.committed (before.goto call next).isOpen = rows.committed before.isOpen := by
    rintro Row rows rows' (rfl | ⟨row, rfl⟩)
    · rw [hisOpen]
    · rw [hisOpen, Inserts.committed_insert hbefore]
  exact Visible.ext rfl rfl (hrows horders) (hrows hitems) (hrows hjobs) (hrows houtbox)

end Marketplace.Checkout
