import Marketplace.Messaging.ConsumerOnce
import Marketplace.Orders.PlacingAgrees
import Marketplace.Orders.PlacingSteps
import Marketplace.Outbox.Pipeline
import Marketplace.Outbox.PipelineRows

/-!
# No event is lost, none is made up, and its effect is applied once

Over every run of the pipeline, whichever of its processes dies where.
-/

namespace Marketplace.Pipeline

open Checkout (JsNumber)
open OrderPlacedConsumer (Only)
open ReadCommitted ReadCommitted.Table Transition
open Relay (Envelope OutboxId)

variable {number : Text → JsNumber} {state after : State} {call : Call} {orderId : OrderId}
  {minted : OutboxId → Option OrderPlacedEvent}

/-- Some call has placed the order. -/
def State.Placed (state : State) (orderId : OrderId) : Prop :=
  ∃ call, (state.placing.calls call).order = some orderId

def State.facts (state : State) (minted : OutboxId → Option OrderPlacedEvent) : Facts where
  minted := minted
  delivered := state.consumer.Delivered
  placed := state.Placed
  enqueued call orderId := (state.placing.calls call).enqueued = some orderId

/-- An event of an order that is placed. -/
structure Genuine (facts : Facts) (event : OrderPlacedEvent) : Prop where
  type : event.type = routingKeyOrderPlaced
  eventId : event.eventId = orderPlacedEventId event.data.orderId
  placed : facts.placed event.data.orderId

theorem Genuine.mono {facts facts' : Facts} {event : OrderPlacedEvent}
    (hgenuine : Genuine facts event) (hle : facts.Le facts') : Genuine facts' event :=
  ⟨hgenuine.type, hgenuine.eventId, hle.placed _ hgenuine.placed⟩

/-- What is known of a state, `minted` being the events that the ids of `outbox` were made for. -/
structure Consistent (minted : OutboxId → Option OrderPlacedEvent) (state : State) : Prop where
  orders : state.placing.orders.Tracks Placing.OrdersOk state.placing.calls
  consumer : OrderPlacedConsumer.Inv state.consumer
  only : Only (Genuine (state.facts minted)) state.consumer
  table : TableOk (state.facts minted) state.relay.outbox
  passes : ∀ call, PassOk (state.facts minted) (state.relay.passes call)
  flights : ∀ entry ∈ state.flights, EnvelopeOk (state.facts minted) entry.2
  accepted : ∀ entry ∈ state.accepted, SentOk (state.facts minted) entry.2
  unrouted : state.unrouted = []
  inserted : ∀ call orderId, (state.placing.calls call).enqueued = some orderId →
    ∃ id row, state.relay.outbox.cell id = ⟨none, some (call, some row)⟩ ∧
      row.payload.data.orderId = orderId
  kept : ∀ orderId, state.Placed orderId → Kept (state.facts minted) state.relay.outbox orderId
  cleanups : ∀ call, state.cleanups call ≠ .idle → state.placing.calls call = .idle

theorem consistent_init : Consistent (fun _ => none) State.init where
  orders _ := rfl
  consumer := OrderPlacedConsumer.inv_init
  only := OrderPlacedConsumer.only_init
  table := tableOk_empty fun _ => rfl
  passes _ := passOk_idle
  flights := by simp [State.init]
  accepted := by simp [State.init]
  unrouted := rfl
  inserted := by simp [State.init, Placing.State.init, Placing.Phase.enqueued]
  kept := by simp [State.init, Placing.State.init, State.Placed, Placing.Phase.order]
  cleanups := by simp [State.init]

/-! ### Steps that leave the orders alone -/

/-- A row that waits for the COMMIT of its order is not touched by another transaction. -/
theorem inserted_frame {mover : Call} {outbox outbox' : Table Call OutboxId OutboxRow}
    (hframe : Frame mover outbox outbox') (hne : call ≠ mover)
    (hinserted : ∃ id row, outbox.cell id = ⟨none, some (call, some row)⟩ ∧
      row.payload.data.orderId = orderId) :
    ∃ id row, outbox'.cell id = ⟨none, some (call, some row)⟩ ∧
      row.payload.data.orderId = orderId := by
  obtain ⟨id, row, hcell, horder⟩ := hinserted
  refine ⟨id, row, ?_, horder⟩
  rw [hframe.kept id call (some row) hne (by rw [hcell]), hcell]

/-- The relays, the cleanup, the broker and the consumers: what has to be shown of their steps. -/
theorem Consistent.other_step (hstate : Consistent minted state)
    (hplacing : after.placing = state.placing) (hmover : after.relay.outbox = state.relay.outbox ∨
      ∃ mover, state.placing.calls mover = .idle ∧
        Frame mover state.relay.outbox after.relay.outbox)
    (hdelivered : ∀ eventId, state.consumer.Delivered eventId → after.consumer.Delivered eventId)
    (hconsumer : OrderPlacedConsumer.Inv after.consumer)
    (honly : Only (Genuine (state.facts minted)) after.consumer)
    (htable : TableOk (state.facts minted) after.relay.outbox)
    (hkept : ∀ orderId, Kept (state.facts minted) state.relay.outbox orderId →
      Kept (state.facts minted) after.relay.outbox orderId)
    (hpasses : ∀ call, PassOk (state.facts minted) (after.relay.passes call))
    (hflights : ∀ entry ∈ after.flights, EnvelopeOk (state.facts minted) entry.2)
    (haccepted : ∀ entry ∈ after.accepted, SentOk (after.facts minted) entry.2)
    (hunrouted : after.unrouted = [])
    (hcleanups : ∀ call, after.cleanups call ≠ .idle → state.placing.calls call = .idle) :
    Consistent minted after := by
  have hplaced (orderId : OrderId) : after.Placed orderId ↔ state.Placed orderId := by
    simp only [State.Placed, hplacing]
  have hle : (state.facts minted).Le (after.facts minted) :=
    ⟨fun _ _ => id, hdelivered, fun orderId => (hplaced orderId).mpr⟩
  constructor
  · rw [hplacing]
    exact hstate.orders
  · exact hconsumer
  · exact honly.mono fun event hgenuine => hgenuine.mono hle
  · apply htable.mono hle rfl
    simp [State.facts, hplacing]
  · exact fun call => (hpasses call).mono hle
  · exact fun entry hentry => (hflights entry hentry).mono hle
  · exact haccepted
  · exact hunrouted
  · intro call orderId henqueued
    rw [hplacing] at henqueued
    have hinserted := hstate.inserted call orderId henqueued
    rcases hmover with hsame | ⟨mover, hidle, hframe⟩
    · rwa [hsame]
    · refine inserted_frame hframe ?_ hinserted
      rintro rfl
      simp [hidle, Placing.Phase.enqueued] at henqueued
  · intro orderId horder
    exact (hkept orderId (hstate.kept orderId ((hplaced orderId).mp horder))).mono hle
  · rw [hplacing]
    exact hcleanups

/-! ### The relays -/

theorem mem_newFlight {passes : Call → Relay.Phase} {action : Relay.Action}
    {entry : Call × Envelope} (hentry : entry ∈ newFlight passes action) : ∃ call pass rest,
      passes call = .awaiting pass entry.2 rest := by
  unfold newFlight at hentry
  split at hentry
  case h_2 => cases hentry
  rename_i call
  obtain ⟨row, hrow, rfl⟩ := List.mem_map.mp hentry
  rw [Option.mem_toList] at hrow
  unfold awaited at hrow
  split at hrow <;> cases hrow
  rename_i pass rest hphase
  exact ⟨call, pass, rest, hphase⟩

theorem Consistent.relay_step {action : Relay.Action} (hstate : Consistent minted state)
    (hstep : relay state action = some after) : Consistent minted after := by
  unfold relay at hstep
  split at hstep
  case isFalse => cases hstep
  rename_i hguard
  obtain ⟨⟨hidle, -⟩, hpermitted⟩ := hguard
  obtain ⟨relay, hrelay, rfl⟩ := Option.map_eq_some_iff.mp hstep
  obtain ⟨call, phase, next, outbox, confirmed, hphase, rfl, hruns⟩ := Relay.step_runs hrelay
  have hcaller : action.caller = call := by
    cases hruns <;> rfl
  rw [hcaller] at hidle
  have hnot : ∀ orderId, ¬ (state.facts minted).enqueued call orderId := by
    simp [State.facts, hidle, Placing.Phase.enqueued]
  have henqueue : ∀ id data occurredAt now, action ≠ .enqueue call id data occurredAt now := by
    rintro id data occurredAt now rfl
    exact hpermitted
  have hpass : PassOk (state.facts minted) phase := hphase ▸ hstate.passes call
  -- a pass is told of a confirm only after the broker has taken the message
  have haccepted : ∀ pass row rest, action = .settle call .confirmed →
      phase = .awaiting pass row rest →
      SentOk (state.facts minted) row.id := by
    rintro pass row rest rfl rfl
    have hmem : (call, row.id) ∈ state.accepted := by
      simpa [Permitted, awaited, hphase] using hpermitted
    exact hstate.accepted _ hmem
  have hnext := hpass.step hruns hstate.table hnot haccepted
  have hpasses : ∀ other, PassOk (state.facts minted)
      (Function.update state.relay.passes call next other) := by
    intro other
    by_cases heq : other = call
    · rw [heq, Function.update_self]
      exact hnext
    · rw [Function.update_of_ne heq]
      exact hstate.passes other
  obtain ⟨htable, hkept⟩ := hstate.table.relay hruns hpass hnot henqueue
  refine hstate.other_step rfl (.inr ⟨call, hidle, hruns.frame⟩)
    (fun _ => id) hstate.consumer hstate.only htable hkept
    hpasses ?_ hstate.accepted hstate.unrouted hstate.cleanups
  intro entry hentry
  rcases List.mem_append.mp hentry with hold | hnew
  · exact hstate.flights entry hold
  · obtain ⟨owner, pass, rest, howner⟩ := mem_newFlight hnew
    have hawaiting := hpasses owner
    rw [show Function.update state.relay.passes call next owner = _ from howner] at hawaiting
    exact hawaiting.awaiting

/-! ### The cleanup -/

theorem Consistent.cleanupOutbox_step {now : Nat} (hstate : Consistent minted state)
    (hstep : cleanupOutbox state call now = some after) : Consistent minted after := by
  unfold cleanupOutbox at hstep
  split at hstep <;> cases hstep
  rename_i hguard
  obtain ⟨⟨hidle, -⟩, -⟩ := hguard
  refine hstate.other_step rfl (.inl rfl) (fun _ => id) hstate.consumer hstate.only hstate.table
    (fun _ => id) hstate.passes hstate.flights hstate.accepted hstate.unrouted ?_
  intro other hother
  by_cases heq : other = call
  · exact heq ▸ hidle
  · exact hstate.cleanups other (by simpa [heq] using hother)

/-- A cleanup that goes on: its connection places no order. -/
theorem Consistent.cleanups_update {cleanup : Cleanup} (hstate : Consistent minted state)
    (hbusy : state.cleanups call ≠ .idle) :
    ∀ other, Function.update state.cleanups call cleanup other ≠ .idle →
      state.placing.calls other = .idle := by
  intro other hother
  by_cases heq : other = call
  · exact heq ▸ hstate.cleanups call hbusy
  · exact hstate.cleanups other (by simpa [heq] using hother)

theorem Consistent.deleteRow_step (hstate : Consistent minted state)
    (hstep : deleteRow state call = some after) : Consistent minted after := by
  unfold deleteRow at hstep
  split at hstep
  case h_2 => cases hstep
  rename_i now rowId rest hphase
  have hbusy : state.cleanups call ≠ .idle := by simp [hphase]
  have hidle := hstate.cleanups call hbusy
  have hnot : ∀ orderId, ¬ (state.facts minted).enqueued call orderId := by
    simp [State.facts, hidle, Placing.Phase.enqueued]
  split at hstep
  case isFalse => cases hstep
  rename_i hlock
  dsimp only at hstep
  split at hstep <;> cases hstep
  · rename_i row hview
    refine hstate.other_step rfl (.inr ⟨call, hidle, frame_put hlock⟩)
      (fun _ => id) hstate.consumer hstate.only ?_ ?_
      hstate.passes hstate.flights hstate.accepted hstate.unrouted (hstate.cleanups_update hbusy)
    · obtain ⟨hok, old, hold, hsame⟩ := hstate.table.view hnot hview
      change TableOk (state.facts minted) (state.relay.outbox.put call rowId
        (if expired now row then none else some row))
      split
      · -- only a published row is deleted, and its event was delivered
        rename_i hexpired
        refine hstate.table.put_none ⟨old, hold, ?_⟩
        rw [hsame]
        apply hok.published
        obtain ⟨publishedAt, hset, -⟩ := Option.any_eq_true _ _ |>.mp hexpired
        simp [hset]
      · exact hstate.table.put_some hok ⟨old, hold⟩
    · intro orderId hkept
      exact hkept.congr fun id => committed_put
  · exact hstate.other_step rfl (.inl rfl) (fun _ => id) hstate.consumer hstate.only hstate.table
      (fun _ => id) hstate.passes hstate.flights hstate.accepted hstate.unrouted
      (hstate.cleanups_update hbusy)

theorem Consistent.endCleanup_step (hstate : Consistent minted state)
    (hstep : endCleanup state call = some after) : Consistent minted after := by
  unfold endCleanup at hstep
  split at hstep <;> cases hstep
  rename_i now hphase
  have hbusy : state.cleanups call ≠ .idle := by simp [hphase]
  have hidle := hstate.cleanups call hbusy
  refine hstate.other_step rfl (.inr ⟨call, hidle, frame_commit⟩)
    (fun _ => id) hstate.consumer hstate.only ?_ ?_
    hstate.passes hstate.flights hstate.accepted hstate.unrouted (hstate.cleanups_update hbusy)
  · refine hstate.table.commit (Facts.le_refl _) rfl ?_ fun other orderId _ => id
    simp [State.facts, hidle, Placing.Phase.enqueued]
  · exact fun orderId hkept => hkept.commit hstate.table call

theorem Consistent.abortCleanup_step (hstate : Consistent minted state)
    (hstep : abortCleanup state call = some after) : Consistent minted after := by
  unfold abortCleanup at hstep
  split at hstep <;> cases hstep
  rename_i now rest hphase
  have hbusy : state.cleanups call ≠ .idle := by simp [hphase]
  refine hstate.other_step rfl (.inr ⟨call, hstate.cleanups call hbusy, frame_rollback⟩)
    (fun _ => id) hstate.consumer
    hstate.only ?_ ?_ hstate.passes hstate.flights hstate.accepted hstate.unrouted
    (hstate.cleanups_update hbusy)
  · exact hstate.table.rollback (Facts.le_refl _) rfl fun other orderId _ => id
  · exact fun orderId hkept => hkept.congr fun id => committed_rollback

/-! ### The broker and the consumers -/

theorem Consistent.consume_step {action : OrderPlacedConsumer.Action}
    (hstate : Consistent minted state) (hstep : consume state action = some after) :
    Consistent minted after := by
  have harrive : ∀ event, action ≠ .arrive event := by
    rintro event rfl
    cases hstep
  have hmap : (OrderPlacedConsumer.step state.consumer action).map (fun consumer =>
      { state with consumer := consumer }) = some after := by
    unfold consume at hstep
    split at hstep
    · cases hstep
    · exact hstep
  obtain ⟨consumer, hconsumer, rfl⟩ := Option.map_eq_some_iff.mp hmap
  refine hstate.other_step rfl (.inl rfl) ?_ (hstate.consumer.step hconsumer) ?_ hstate.table
    (fun _ => id) hstate.passes hstate.flights ?_ hstate.unrouted hstate.cleanups
  · exact fun eventId => hstate.consumer.delivered_step hconsumer
  · exact hstate.only.step hstate.consumer.tables
      (fun event heq => absurd heq (harrive event)) hconsumer
  · intro entry hentry
    obtain ⟨event, hminted, hdelivered⟩ := hstate.accepted entry hentry
    exact ⟨event, hminted, hstate.consumer.delivered_step hconsumer hdelivered⟩

/-- The broker takes messages of placed orders only, and each goes to the queue of
`order.placed`. -/
theorem Consistent.accept_step {row : Envelope} (hstate : Consistent minted state)
    (hstep : accept state call row = some after) : Consistent minted after := by
  unfold accept at hstep
  split at hstep
  case isFalse => cases hstep
  rename_i hflight
  have hrow := hstate.flights _ hflight
  rw [if_pos hrow.type] at hstep
  obtain ⟨consumer, hconsumer, rfl⟩ := Option.map_eq_some_iff.mp hstep
  have hbuilt := hstate.table.built row.id row.payload hrow.minted
  refine hstate.other_step rfl (.inl rfl) ?_ (hstate.consumer.step hconsumer) ?_ hstate.table
    (fun _ => id) hstate.passes ?_ ?_ hstate.unrouted hstate.cleanups
  · exact fun eventId => hstate.consumer.delivered_step hconsumer
  · refine hstate.only.step hstate.consumer.tables ?_ hconsumer
    rintro event heq
    cases heq
    exact ⟨hbuilt.1, hbuilt.2, hrow.placed⟩
  · exact fun entry hentry => hstate.flights entry (List.mem_of_mem_erase hentry)
  · intro entry hentry
    rcases List.mem_cons.mp hentry with rfl | hold
    · exact ⟨row.payload, hrow.minted,
        OrderPlacedConsumer.delivered_arrive state.consumer row.payload consumer hconsumer⟩
    · obtain ⟨event, hminted, hdelivered⟩ := hstate.accepted entry hold
      exact ⟨event, hminted, hstate.consumer.delivered_step hconsumer hdelivered⟩

theorem Consistent.lose_step {row : Envelope} (hstate : Consistent minted state)
    (hstep : lose state call row = some after) : Consistent minted after := by
  unfold lose at hstep
  split at hstep <;> cases hstep
  refine hstate.other_step rfl (.inl rfl) (fun _ => id) hstate.consumer hstate.only hstate.table
    (fun _ => id) hstate.passes ?_ hstate.accepted hstate.unrouted hstate.cleanups
  exact fun entry hentry => hstate.flights entry (List.mem_of_mem_erase hentry)

/-! ### Placing orders -/

theorem placed_mono {next : Placing.Phase}
    (hcalls : after.placing.calls = Function.update state.placing.calls call next)
    (horder : (state.placing.calls call).order = none) (hplaced : state.Placed orderId) :
    after.Placed orderId := by
  obtain ⟨other, hother⟩ := hplaced
  have hne : other ≠ call := by
    rintro rfl
    simp [horder] at hother
  exact ⟨other, by simpa [hcalls, hne] using hother⟩

/-- A step of a transaction that places an order: what has to be shown of it. -/
theorem Consistent.placing_step {minted' : OutboxId → Option OrderPlacedEvent}
    {next : Placing.Phase} (hstate : Consistent minted state) (hidle : state.cleanups call = .idle)
    (hcalls : after.placing.calls = Function.update state.placing.calls call next)
    (horders : after.placing.orders.Tracks Placing.OrdersOk after.placing.calls)
    (hconsumer : after.consumer = state.consumer)
    (hpasses : after.relay.passes = state.relay.passes) (hflights : after.flights = state.flights)
    (haccepted : after.accepted = state.accepted) (hunrouted : after.unrouted = state.unrouted)
    (hcleanups : after.cleanups = state.cleanups)
    (hle : (state.facts minted).Le (after.facts minted'))
    (htable : TableOk (after.facts minted') after.relay.outbox)
    (hframe : Frame call state.relay.outbox after.relay.outbox)
    (hinserted : ∀ orderId, next.enqueued = some orderId → ∃ id row,
      after.relay.outbox.cell id = ⟨none, some (call, some row)⟩ ∧
        row.payload.data.orderId = orderId)
    (hkept : ∀ orderId, Kept (state.facts minted) state.relay.outbox orderId →
      Kept (state.facts minted) after.relay.outbox orderId)
    (hself : ∀ orderId, next.order = some orderId →
      Kept (after.facts minted') after.relay.outbox orderId) :
    Consistent minted' after := by
  constructor
  · exact horders
  · rw [hconsumer]
    exact hstate.consumer
  · rw [hconsumer]
    exact hstate.only.mono fun event hgenuine => hgenuine.mono hle
  · exact htable
  · rw [hpasses]
    exact fun other => (hstate.passes other).mono hle
  · rw [hflights]
    exact fun entry hentry => (hstate.flights entry hentry).mono hle
  · rw [haccepted]
    exact fun entry hentry => (hstate.accepted entry hentry).mono hle
  · rw [hunrouted]
    exact hstate.unrouted
  · intro other orderId henqueued
    by_cases heq : other = call
    · subst heq
      exact hinserted orderId (by simpa [hcalls] using henqueued)
    · apply inserted_frame hframe heq
      exact hstate.inserted other orderId (by simpa [hcalls, heq] using henqueued)
  · rintro orderId ⟨other, hother⟩
    by_cases heq : other = call
    · exact hself orderId (by simpa [hcalls, heq] using hother)
    · have hplaced : state.Placed orderId := ⟨other, by simpa [hcalls, heq] using hother⟩
      exact (hkept orderId (hstate.kept orderId hplaced)).mono hle
  · intro other hother
    rw [hcleanups] at hother
    have hne : other ≠ call := by
      rintro rfl
      exact hother hidle
    simpa [hcalls, hne] using hstate.cleanups other hother

theorem endOutbox_eq {phase : Placing.Phase} (outbox : Table Call OutboxId OutboxRow)
    (horder : phase.order = none) (hthrew : phase ≠ .threw) :
    endOutbox call phase outbox = outbox := by
  cases phase <;> first | rfl | exact absurd rfl hthrew | cases horder

theorem Consistent.place_step {action : Placing.Action} (hstate : Consistent minted state)
    (hstep : place number state action = some after) : Consistent minted after := by
  have henqueue : ∀ call occurredAt now, action ≠ .enqueue call occurredAt now := by
    rintro call occurredAt now rfl
    cases hstep
  have hguard : state.FreeForPlacing action.caller ∧ (Placing.step number state.placing action).map
      (fun placing => { state.setOutbox
        (endOutbox action.caller (placing.calls action.caller) state.relay.outbox) with
          placing := placing }) = some after := by
    unfold place at hstep
    split at hstep
    · cases hstep
    · simpa using hstep
  obtain ⟨⟨-, hidle⟩, hmap⟩ := hguard
  obtain ⟨placing, hplacing, rfl⟩ := Option.map_eq_some_iff.mp hmap
  obtain ⟨next, hcalls, hturn, -⟩ := Placing.step_turns hplacing
  have horders := Placing.tracks_orders_step hstate.orders hplacing
  have hnext : placing.calls action.caller = next := by simp [hcalls]
  rw [hnext]
  have hplaced : ∀ orderId, state.Placed orderId →
      ({ state.setOutbox (endOutbox action.caller next state.relay.outbox) with
        placing := placing } : State).Placed orderId :=
    fun orderId => placed_mono hcalls hturn.order_eq_none
  have hle : (state.facts minted).Le (({ state.setOutbox
      (endOutbox action.caller next state.relay.outbox) with placing := placing } :
      State).facts minted) :=
    ⟨fun _ _ => id, fun _ => id, hplaced⟩
  generalize hphase : state.placing.calls action.caller = phase at hturn
  have hothers : ∀ other orderId, other ≠ action.caller →
      (state.facts minted).enqueued other orderId →
      (placing.calls other).enqueued = some orderId := by
    intro other orderId hne henqueued
    rw [hcalls, Function.update_of_ne hne]
    exact henqueued
  cases hturn with
  | kept action phase next haction hthrew horder hnone henqueued =>
      have hsame : endOutbox action.caller next state.relay.outbox = state.relay.outbox :=
        endOutbox_eq _ hnone hthrew
      rw [hsame] at hle ⊢
      refine hstate.placing_step hidle hcalls horders rfl rfl rfl rfl rfl rfl hle ?_ frame_refl ?_
        (fun _ => id) ?_
      · refine hstate.table.mono hle rfl fun other orderId hother => ?_
        by_cases heq : other = action.caller
        · subst heq
          change (placing.calls action.caller).enqueued = some orderId
          rw [hcalls, Function.update_self, henqueued, ← hphase]
          exact hother
        · exact hothers other orderId heq hother
      · intro orderId hsome
        exact hstate.inserted action.caller orderId (by rw [hphase, ← henqueued, hsome])
      · intro orderId hsome
        simp [hnone] at hsome
  | enqueued call occurredAt now => exact absurd rfl (henqueue _ _ _)
  | committed call source orderId =>
      have hmine : (state.placing.calls call).enqueued = some orderId :=
        (congrArg Placing.Phase.enqueued hphase).trans rfl
      refine hstate.placing_step hidle hcalls horders rfl rfl rfl rfl rfl rfl hle ?_ frame_commit ?_
        (fun orderId hkept => hkept.commit hstate.table call) ?_
      · refine hstate.table.commit hle rfl ?_ hothers
        intro other hother
        have heq : orderId = other := Option.some.inj (hmine.symm.trans hother)
        exact ⟨call, (congrArg Placing.Phase.order hnext).trans (congrArg some heq)⟩
      · intro other hsome
        cases hsome
      · rintro other ⟨⟩
        -- the row of the order is committed with it
        obtain ⟨id, row, hcell, horder⟩ := hstate.inserted call orderId hmine
        refine .inl ⟨id, row, ?_, horder⟩
        exact congrArg Cell.committed (commit_of_held (congrArg Cell.held hcell))
  | threw action phase haction hopen =>
      refine hstate.placing_step hidle hcalls horders rfl rfl rfl rfl rfl rfl hle ?_
        frame_rollback ?_
        (fun orderId hkept => hkept.congr fun id => committed_rollback) ?_
      · exact hstate.table.rollback hle rfl hothers
      · intro other hsome
        cases hsome
      · intro other hsome
        cases hsome

/-- The row of a new id: nobody has minted it before. -/
theorem Consistent.enqueue_step {id : OutboxId} {occurredAt now : Nat}
    (hstate : Consistent minted state)
    (hstep : enqueueOrderPlaced number state call id occurredAt now = some after) :
    ∃ minted', Consistent minted' after := by
  unfold enqueueOrderPlaced at hstep
  split at hstep
  case isFalse => cases hstep
  rename_i hguard
  obtain ⟨⟨-, hidle⟩, hid⟩ := hguard
  split at hstep
  case h_2 => cases hstep
  rename_i row placing hrow hplacing
  cases hstep
  obtain ⟨next, hcalls, hturn, -⟩ := Placing.step_turns hplacing
  have horders := Placing.tracks_orders_step hstate.orders hplacing
  simp only [Placing.Action.caller] at hcalls hturn
  -- the row is the one of the order that the call has saved
  obtain ⟨idempotent, source, orderId, hphase, rfl⟩ : ∃ idempotent source orderId,
      state.placing.calls call = .enqueuing idempotent source orderId ∧
        row = Marketplace.enqueueOrderPlaced (source.eventData orderId) occurredAt now := by
    unfold pending at hrow
    split at hrow <;> cases hrow
    rename_i idempotent source orderId hphase
    exact ⟨idempotent, source, orderId, hphase, rfl⟩
  have hdata : (source.eventData orderId).orderId = orderId :=
    Placing.eventData_orderId source orderId
  have hnext : next.order = none ∧ next.enqueued = some orderId := by
    rw [hphase] at hturn
    cases hturn with
    | enqueued call occurredAt now idempotent source orderId next hnone henqueued =>
        exact ⟨hnone, henqueued⟩
    | kept action phase next haction => exact absurd rfl (haction call occurredAt now)
    | threw action phase haction => exact absurd rfl (haction call occurredAt now)
  obtain ⟨hnone, henqueued⟩ := hnext
  generalize hrowIs : Marketplace.enqueueOrderPlaced (source.eventData orderId) occurredAt now = row
  have hrowOrder : row.payload.data.orderId = orderId := hrowIs ▸ hdata
  have hcell : state.relay.outbox.cell id = Cell.absent := by
    by_contra hne
    exact hid (state.relay.outbox.listed id hne)
  have hlock : state.relay.outbox.lockable call id = true := by
    simp [Table.lockable, Cell.lockable, hcell, Cell.absent]
  refine ⟨Function.update minted id (some row.payload), ?_⟩
  have hle : (state.facts minted).Le
      (({ state.setOutbox (state.relay.outbox.put call id (some row)) with
        placing := placing } : State).facts (Function.update minted id (some row.payload))) := by
    refine ⟨?_, fun _ hdelivered => hdelivered,
      fun other => placed_mono hcalls (by simp [hphase, Placing.Phase.order])⟩
    intro other event hminted
    have hne : other ≠ id := by
      rintro rfl
      rw [hstate.table.fresh other hid] at hminted
      cases hminted
    simpa [State.facts, hne] using hminted
  refine hstate.placing_step hidle hcalls horders rfl rfl rfl rfl rfl rfl hle ?_
    (frame_put hlock) ?_ ?_ ?_
  · refine hstate.table.insert hle hid ⟨?_, ?_, ?_⟩ ⟨?_, ?_⟩ ?_ ?_ ?_
    · simp [State.facts]
    · rw [← hrowIs]
      rfl
    · rw [← hrowIs]
      intro hset
      cases hset
    · rw [← hrowIs]
      rfl
    · rw [← hrowIs]
      rfl
    · intro other hne
      simp [State.facts, hne]
    · intro other otherOrder hother
      have hne : other ≠ call := by
        rintro rfl
        simp [State.facts, hphase, Placing.Phase.enqueued] at hother
      simpa [State.facts, hcalls, hne] using hother
    · rw [hrowOrder]
      simpa [State.facts, hcalls] using henqueued
  · intro other hother
    have heq : orderId = other := Option.some.inj (henqueued.symm.trans hother)
    refine ⟨id, row, ?_, hrowOrder.trans heq⟩
    change (state.relay.outbox.put call id (some row)).cell id = _
    rw [cell_put_self, Table.committed, hcell]
    rfl
  · exact fun other hkept => hkept.congr fun _ => committed_put
  · intro other hother
    simp [hnone] at hother

/-! ### Every run -/

def Inv (state : State) : Prop := ∃ minted, Consistent minted state

theorem inv_step {action : Action} (hinv : Inv state)
    (hstep : step number state action = some after) :
    Inv after := by
  obtain ⟨minted, hstate⟩ := hinv
  cases action with
  | place action => exact ⟨minted, hstate.place_step hstep⟩
  | enqueueOrderPlaced call id occurredAt now => exact hstate.enqueue_step hstep
  | relay action => exact ⟨minted, hstate.relay_step hstep⟩
  | accept call row => exact ⟨minted, hstate.accept_step hstep⟩
  | lose call row => exact ⟨minted, hstate.lose_step hstep⟩
  | cleanupOutbox call now => exact ⟨minted, hstate.cleanupOutbox_step hstep⟩
  | deleteRow call => exact ⟨minted, hstate.deleteRow_step hstep⟩
  | endCleanup call => exact ⟨minted, hstate.endCleanup_step hstep⟩
  | abortCleanup call => exact ⟨minted, hstate.abortCleanup_step hstep⟩
  | consume action => exact ⟨minted, hstate.consume_step hstep⟩

/-- The event is the one of a committed order. -/
def State.Ordered (state : State) (eventId : Text) : Prop :=
  ∃ order ∈ state.placing.committedOrders, eventId = orderPlacedEventId order.id

/-- What the pipeline is for. -/
structure Safe (state : State) : Prop where
  /-- The event of a committed order waits in `outbox`, is with the broker, or has had its
  effect. -/
  kept : ∀ order ∈ state.placing.committedOrders,
    (∃ id row, state.relay.outbox.committed id = some row ∧ row.publishedAt = none ∧
      row.payload.eventId = orderPlacedEventId order.id) ∨
    state.consumer.InBroker (orderPlacedEventId order.id) ∨
    state.consumer.processedOrderEvents.committed (orderPlacedEventId order.id) = some ⟨order.id⟩
  /-- No row, message or effect is about anything else. -/
  rows : ∀ id row, state.relay.outbox.committed id = some row → state.Ordered row.payload.eventId
  flights : ∀ entry ∈ state.flights, state.Ordered entry.2.payload.eventId
  messages : ∀ event, state.consumer.Has event → state.Ordered event.eventId
  effects : ∀ eventId row, state.consumer.processedOrderEvents.committed eventId = some row →
    eventId = orderPlacedEventId row.orderId ∧ state.Ordered eventId
  unrouted : state.unrouted = []
  /-- One transaction at most has applied the effect, and the effect is there only if one has. -/
  once : state.consumer.applied.Nodup
  applied : ∀ eventId, eventId ∈ state.consumer.applied ↔ state.consumer.Processed eventId

theorem Consistent.ordered (hstate : Consistent minted state) :
    (∃ order ∈ state.placing.committedOrders, order.id = orderId) ↔ state.Placed orderId := by
  constructor
  · rintro ⟨order, horder, rfl⟩
    obtain ⟨call, source, id, hphase, rfl⟩ := (Placing.mem_committedOrders hstate.orders).mp horder
    exact ⟨call, by rw [hphase, Placing.orderRow_id, Placing.Phase.order]⟩
  · rintro ⟨call, hcall⟩
    cases hphase : state.placing.calls call with
    | placed source id =>
        have hid : id = orderId := by simpa [hphase, Placing.Phase.order] using hcall
        refine ⟨source.orderRow id, (Placing.mem_committedOrders hstate.orders).mpr ?_, ?_⟩
        · exact ⟨call, source, id, hphase, rfl⟩
        · rw [Placing.orderRow_id, hid]
    | _ => simp [hphase, Placing.Phase.order] at hcall

theorem Consistent.ordered_of_placed (hstate : Consistent minted state) {eventId : Text}
    (heventId : eventId = orderPlacedEventId orderId) (hplaced : state.Placed orderId) :
    state.Ordered eventId := by
  obtain ⟨order, horder, rfl⟩ := hstate.ordered.mpr hplaced
  exact ⟨order, horder, heventId⟩

theorem Consistent.safe (hstate : Consistent minted state) : Safe state where
  kept order horder := by
    have hplaced : state.Placed order.id := hstate.ordered.mp ⟨order, horder, rfl⟩
    have hdelivered : state.consumer.Delivered (orderPlacedEventId order.id) →
        state.consumer.InBroker (orderPlacedEventId order.id) ∨
        state.consumer.processedOrderEvents.committed (orderPlacedEventId order.id) =
          some ⟨order.id⟩ := by
      refine Or.imp_right ?_
      rintro ⟨row, hrow⟩
      obtain ⟨event, hgenuine, heventId, rfl⟩ := hstate.only.rows _ row hrow
      rw [hgenuine.eventId] at heventId
      rw [hrow, orderPlacedEventId_injective heventId]
    rcases hstate.kept order.id hplaced with ⟨id, row, hrow, hid⟩ | hdone
    · have hok := (hstate.table.committed id row hrow).1
      have heventId : row.payload.eventId = orderPlacedEventId order.id := by
        rw [(hstate.table.built id _ hok.minted).2, hid]
      cases hpublished : row.publishedAt with
      | none => exact .inl ⟨id, row, hrow, hpublished, heventId⟩
      | some publishedAt =>
          right
          apply hdelivered
          rw [← heventId]
          exact hok.published (by simp [hpublished])
    · exact .inr (hdelivered hdone)
  rows id row hrow := by
    obtain ⟨hok, hplaced⟩ := hstate.table.committed id row hrow
    exact hstate.ordered_of_placed (hstate.table.built id _ hok.minted).2 hplaced
  flights entry hentry := by
    have hrow := hstate.flights entry hentry
    exact hstate.ordered_of_placed (hstate.table.built _ _ hrow.minted).2 hrow.placed
  messages event hhas := by
    have hgenuine := hstate.only.messages event hhas
    exact hstate.ordered_of_placed hgenuine.eventId hgenuine.placed
  effects eventId row hrow := by
    obtain ⟨event, hgenuine, rfl, rfl⟩ := hstate.only.rows eventId row hrow
    exact ⟨hgenuine.eventId, hstate.ordered_of_placed hgenuine.eventId hgenuine.placed⟩
  unrouted := hstate.unrouted
  once := hstate.consumer.tables.nodup
  applied := hstate.consumer.tables.applied

theorem pipeline_safe (number : Text → JsNumber) {state : State}
    (hreach : Reachable (step number) State.init state) : Safe state := by
  obtain ⟨minted, hstate⟩ : Inv state :=
    hreach.invariant Inv ⟨_, consistent_init⟩ fun _ _ _ _ hinv _ => inv_step hinv
  exact hstate.safe

/-- The row of the first order of `pipelineTrace`. -/
def sampleRow : OutboxRow :=
  Marketplace.enqueueOrderPlaced ⟨1, "bob@example.com", 5994, "UAH", [⟨4, 6⟩]⟩ 6 6

/-- The first pass gives the publish up before the broker takes the message, so a second pass sends
it again; the first consumer dies between the effect and the ack, the message comes back and is
skipped, and so is the second message; the row is deleted seven days later. -/
def pipelineTrace : List Action :=
  let row := Relay.envelope 77 sampleRow
  let options : Relay.RelayOptions := ⟨10, .skipLocked, none⟩
  let event := sampleRow.payload
  [.place (.checkout 1 Placing.sixOfOne), .place (.takeStock 1 999),
    .place (.takeBalance 1 "bob@example.com"), .place (.saveOrder 1), .place (.saveItem 1),
    .place (.saveJob 1), .enqueueOrderPlaced 1 77 6 6, .place (.commit 1),
    .relay (.relayOnce 2 options 20), .relay (.select 2), .relay (.lock 2), .relay (.endSelect 2),
    .relay (.publish 2), .relay (.settle 2 .timedOut), .accept 2 row, .relay (.afterPublish 2),
    .relay (.mark 2), .relay (.markFailed 2), .relay (.commit 2),
    .relay (.relayOnce 3 options 30), .relay (.select 3), .relay (.lock 3), .relay (.endSelect 3),
    .relay (.publish 3), .accept 3 row, .relay (.settle 3 .confirmed), .relay (.endLoop 3),
    .relay (.afterPublish 3), .relay (.mark 3), .relay (.mark 3), .relay (.commit 3),
    .consume (.deliver 0 ⟨event, 0⟩), .consume (.parse 0), .consume (.mark 0),
    .consume (.applyEffect 0),
    .consume (.commit 0 true), .consume (.crash 0), .consume (.closeChannel 0),
    .consume (.deliver 1 ⟨event, 0⟩), .consume (.parse 1), .consume (.mark 1),
    .consume (.commit 1 true),
    .consume (.afterEffect 1 false), .consume (.afterApplied 1), .consume (.ack 1),
    .cleanupOutbox 4 (31 + outboxRetention), .deleteRow 4, .endCleanup 4]

theorem pipeline_safe_trace : ∃ state, Reachable (step readDecimal) State.init state ∧
    (state.placing.committedOrders.map Placing.OrderRow.id = [1] ∧
      state.relay.outbox.committed 77 = none ∧
      state.consumer.applied = [orderPlacedEventId 1] ∧ state.consumer.queue.length = 1) ∧
        Safe state := by
  obtain ⟨state, hreach, hcheck⟩ : ∃ state, Reachable (step readDecimal) State.init state ∧
      decide (state.placing.committedOrders.map Placing.OrderRow.id = [1] ∧
        state.relay.outbox.committed 77 = none ∧
        state.consumer.applied = [orderPlacedEventId 1] ∧ state.consumer.queue.length = 1) = true :=
    exists_reach_of_runWithin pipelineTrace (by decide +kernel)
  exact ⟨state, hreach, of_decide_eq_true hcheck, pipeline_safe readDecimal hreach⟩

end Marketplace.Pipeline
