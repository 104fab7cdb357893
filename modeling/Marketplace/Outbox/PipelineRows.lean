import Marketplace.Outbox.RelayLocks

/-!
# What an outbox row stands for

The rows of `outbox` against what is known outside of it: which event every id was minted for, which
events are delivered, which orders are placed, and which transaction is about to commit a row. A
version that is published was delivered, whoever holds it, and only such versions are deleted.
-/

namespace Marketplace.Pipeline

open ReadCommitted ReadCommitted.Table
open Relay (Envelope OutboxId)

structure Facts where
  minted : OutboxId → Option OrderPlacedEvent
  delivered : Text → Prop
  placed : OrderId → Prop
  /-- The transaction has inserted the row of the order. -/
  enqueued : Call → OrderId → Prop

variable {facts facts' : Facts} {outbox : Table Call OutboxId OutboxRow} {call tx : Call}
  {id : OutboxId} {row row' : OutboxRow} {orderId : OrderId}

/-- More is known. -/
structure Facts.Le (facts facts' : Facts) : Prop where
  minted : ∀ id event, facts.minted id = some event → facts'.minted id = some event
  delivered : ∀ eventId, facts.delivered eventId → facts'.delivered eventId
  placed : ∀ orderId, facts.placed orderId → facts'.placed orderId

theorem Facts.le_refl (facts : Facts) : facts.Le facts :=
  ⟨fun _ _ => id, fun _ => id, fun _ => id⟩

/-! ### Versions of a row -/

structure RowOk (facts : Facts) (id : OutboxId) (row : OutboxRow) : Prop where
  minted : facts.minted id = some row.payload
  type : row.type = routingKeyOrderPlaced
  published : row.publishedAt.isSome = true → facts.delivered row.payload.eventId

theorem RowOk.mono (hrow : RowOk facts id row) (hle : facts.Le facts') : RowOk facts' id row where
  minted := hle.minted id _ hrow.minted
  type := hrow.type
  published hset := hle.delivered _ (hrow.published hset)

/-- Two versions of one row are about the same event. -/
theorem RowOk.payload_eq (hrow : RowOk facts id row) (hrow' : RowOk facts id row') :
    row.payload = row'.payload := by
  simpa [hrow.minted] using hrow'.minted

structure TableOk (facts : Facts) (outbox : Table Call OutboxId OutboxRow) : Prop where
  fresh : ∀ id, id ∉ outbox.keys → facts.minted id = none
  built : ∀ id event, facts.minted id = some event →
    event.type = routingKeyOrderPlaced ∧ event.eventId = orderPlacedEventId event.data.orderId
  committed : ∀ id row, outbox.committed id = some row →
    RowOk facts id row ∧ facts.placed row.payload.data.orderId
  held : ∀ id tx row, (outbox.cell id).held = some (tx, some row) → RowOk facts id row ∧
    ((∃ old, outbox.committed id = some old) ∨ facts.enqueued tx row.payload.data.orderId)
  deleted : ∀ id tx, (outbox.cell id).held = some (tx, none) →
    ∃ old, outbox.committed id = some old ∧ facts.delivered old.payload.eventId

/-- The row of the order is there, or its event is delivered. -/
def Kept (facts : Facts) (outbox : Table Call OutboxId OutboxRow) (orderId : OrderId) : Prop :=
  (∃ id row, outbox.committed id = some row ∧ row.payload.data.orderId = orderId) ∨
    facts.delivered (orderPlacedEventId orderId)

theorem Kept.mono (hkept : Kept facts outbox orderId) (hle : facts.Le facts') :
    Kept facts' outbox orderId :=
  hkept.imp_right (hle.delivered _)

theorem Kept.congr {outbox' : Table Call OutboxId OutboxRow} (hkept : Kept facts outbox orderId)
    (hsame : ∀ id, outbox'.committed id = outbox.committed id) : Kept facts outbox' orderId := by
  refine hkept.imp_left ?_
  rintro ⟨id, row, hrow, horder⟩
  exact ⟨id, row, (hsame id).trans hrow, horder⟩

theorem tableOk_empty (hminted : ∀ id, facts.minted id = none) : TableOk facts Table.empty where
  fresh id _ := hminted id
  built := by simp [hminted]
  committed := by simp
  held := by simp [Cell.absent]
  deleted := by simp [Cell.absent]

theorem TableOk.mono (htable : TableOk facts outbox) (hle : facts.Le facts')
    (hminted : facts'.minted = facts.minted)
    (henqueued : ∀ tx orderId, facts.enqueued tx orderId → facts'.enqueued tx orderId) :
    TableOk facts' outbox where
  fresh := by
    rw [hminted]
    exact htable.fresh
  built := by
    rw [hminted]
    exact htable.built
  committed id row hrow := by
    obtain ⟨hok, hplaced⟩ := htable.committed id row hrow
    exact ⟨hok.mono hle, hle.placed _ hplaced⟩
  held id tx row hheld := by
    obtain ⟨hok, hwhose⟩ := htable.held id tx row hheld
    exact ⟨hok.mono hle, hwhose.imp_right (henqueued tx _)⟩
  deleted id tx hheld := by
    obtain ⟨old, hold, hdelivered⟩ := htable.deleted id tx hheld
    exact ⟨old, hold, hle.delivered _ hdelivered⟩

/-- What a transaction that has inserted no row sees of one. -/
theorem TableOk.view (htable : TableOk facts outbox) (hnot : ∀ orderId, ¬ facts.enqueued tx orderId)
    (hview : outbox.view tx id = some row) :
    RowOk facts id row ∧ ∃ old, outbox.committed id = some old ∧ old.payload = row.payload := by
  by_cases hheld : ∃ version, (outbox.cell id).held = some (tx, version)
  · obtain ⟨version, hversion⟩ := hheld
    rw [view_of_held hversion] at hview
    subst hview
    obtain ⟨hok, hwhose⟩ := htable.held id tx row hversion
    obtain ⟨old, hold⟩ := hwhose.resolve_right (hnot _)
    exact ⟨hok, old, hold, (htable.committed id old hold).1.payload_eq hok⟩
  · push Not at hheld
    rw [view_of_not_held hheld] at hview
    exact ⟨(htable.committed id row hview).1, row, hview, rfl⟩

theorem mem_keys_put {other : OutboxId} {version : Option OutboxRow}
    (hnot : other ∉ (outbox.put tx id version).keys) : other ∉ outbox.keys := by
  intro hmem
  apply hnot
  unfold Table.put
  dsimp only
  split
  · exact hmem
  · exact List.mem_append_left _ hmem

/-- Locking a row, or rewriting it. -/
theorem TableOk.put_some (htable : TableOk facts outbox) (hrow : RowOk facts id row)
    (hold : ∃ old, outbox.committed id = some old) :
    TableOk facts (outbox.put tx id (some row)) where
  fresh other hnot := htable.fresh other (mem_keys_put hnot)
  built := htable.built
  committed := by simpa using htable.committed
  held other owner version hheld := by
    rw [committed_put]
    rcases held_put_iff.mp hheld with ⟨rfl, rfl, hversion⟩ | ⟨-, hheld⟩
    · rw [Option.some.injEq] at hversion
      exact ⟨hversion ▸ hrow, .inl hold⟩
    · exact htable.held other owner version hheld
  deleted other owner hheld := by
    rw [committed_put]
    rcases held_put_iff.mp hheld with ⟨-, -, hversion⟩ | ⟨-, hheld⟩
    · cases hversion
    · exact htable.deleted other owner hheld

/-- Deleting a row whose event is delivered. -/
theorem TableOk.put_none (htable : TableOk facts outbox)
    (hold : ∃ old, outbox.committed id = some old ∧ facts.delivered old.payload.eventId) :
    TableOk facts (outbox.put tx id none) where
  fresh other hnot := htable.fresh other (mem_keys_put hnot)
  built := htable.built
  committed := by simpa using htable.committed
  held other owner version hheld := by
    rw [committed_put]
    rcases held_put_iff.mp hheld with ⟨-, -, hversion⟩ | ⟨-, hheld⟩
    · cases hversion
    · exact htable.held other owner version hheld
  deleted other owner hheld := by
    rw [committed_put]
    rcases held_put_iff.mp hheld with ⟨rfl, rfl, -⟩ | ⟨-, hheld⟩
    · exact hold
    · exact htable.deleted other owner hheld

/-- The INSERT of a row under a new id. -/
theorem TableOk.insert (htable : TableOk facts outbox) (hle : facts.Le facts')
    (hid : id ∉ outbox.keys) (hrow : RowOk facts' id row)
    (hevent : row.payload.type = routingKeyOrderPlaced ∧
      row.payload.eventId = orderPlacedEventId row.payload.data.orderId)
    (hminted : ∀ other, other ≠ id → facts'.minted other = facts.minted other)
    (henqueued : ∀ tx orderId, facts.enqueued tx orderId → facts'.enqueued tx orderId)
    (hself : facts'.enqueued tx row.payload.data.orderId) :
    TableOk facts' (outbox.put tx id (some row)) where
  fresh other hnot := by
    have hne : other ≠ id := by
      rintro rfl
      apply hnot
      unfold Table.put
      dsimp only
      rw [if_neg hid]
      simp
    rw [hminted other hne]
    exact htable.fresh other (mem_keys_put hnot)
  built other event hevent' := by
    by_cases heq : other = id
    · rw [heq, hrow.minted, Option.some.injEq] at hevent'
      exact hevent' ▸ hevent
    · rw [hminted other heq] at hevent'
      exact htable.built other event hevent'
  committed other version hversion := by
    rw [committed_put] at hversion
    obtain ⟨hok, hplaced⟩ := htable.committed other version hversion
    exact ⟨hok.mono hle, hle.placed _ hplaced⟩
  held other owner version hheld := by
    rw [committed_put]
    rcases held_put_iff.mp hheld with ⟨rfl, rfl, hversion⟩ | ⟨-, hheld⟩
    · rw [Option.some.injEq] at hversion
      subst hversion
      exact ⟨hrow, .inr hself⟩
    · obtain ⟨hok, hwhose⟩ := htable.held other owner version hheld
      exact ⟨hok.mono hle, hwhose.imp_right (henqueued owner _)⟩
  deleted other owner hheld := by
    rw [committed_put]
    rcases held_put_iff.mp hheld with ⟨-, -, hversion⟩ | ⟨-, hheld⟩
    · cases hversion
    · obtain ⟨old, hold, hdelivered⟩ := htable.deleted other owner hheld
      exact ⟨old, hold, hle.delivered _ hdelivered⟩

/-- A COMMIT: the order of a row that was inserted is placed from now on. -/
theorem TableOk.commit (htable : TableOk facts outbox) (hle : facts.Le facts')
    (hminted : facts'.minted = facts.minted)
    (hplaced : ∀ orderId, facts.enqueued tx orderId → facts'.placed orderId)
    (henqueued : ∀ other orderId, other ≠ tx → facts.enqueued other orderId →
      facts'.enqueued other orderId) : TableOk facts' (outbox.commit tx) where
  fresh := by
    rw [hminted]
    exact htable.fresh
  built := by
    rw [hminted]
    exact htable.built
  committed id row hrow := by
    rcases commit_cases outbox tx id with ⟨version, hheld, hcell⟩ | ⟨-, hcell⟩
    · rw [Table.committed, hcell] at hrow
      cases hrow
      obtain ⟨hok, hwhose⟩ := htable.held id tx row hheld
      refine ⟨hok.mono hle, ?_⟩
      rcases hwhose with ⟨old, hold⟩ | hmine
      · obtain ⟨hokOld, hplacedOld⟩ := htable.committed id old hold
        rw [← hokOld.payload_eq hok]
        exact hle.placed _ hplacedOld
      · exact hplaced _ hmine
    · rw [Table.committed, hcell] at hrow
      obtain ⟨hok, hplacedOld⟩ := htable.committed id row hrow
      exact ⟨hok.mono hle, hle.placed _ hplacedOld⟩
  held id owner row hheld := by
    obtain ⟨hne, hheld⟩ := held_commit_iff.mp hheld
    obtain ⟨hok, hwhose⟩ := htable.held id owner row hheld
    have hsame : (outbox.commit tx).committed id = outbox.committed id := by
      rw [Table.committed, frame_commit.kept id owner _ hne hheld, Table.committed]
    rw [hsame]
    exact ⟨hok.mono hle, hwhose.imp_right (henqueued owner _ hne)⟩
  deleted id owner hheld := by
    obtain ⟨hne, hheld⟩ := held_commit_iff.mp hheld
    obtain ⟨old, hold, hdelivered⟩ := htable.deleted id owner hheld
    refine ⟨old, ?_, hle.delivered _ hdelivered⟩
    rwa [Table.committed, frame_commit.kept id owner _ hne hheld]

theorem TableOk.rollback (htable : TableOk facts outbox) (hle : facts.Le facts')
    (hminted : facts'.minted = facts.minted)
    (henqueued : ∀ other orderId, other ≠ tx → facts.enqueued other orderId →
      facts'.enqueued other orderId) : TableOk facts' (outbox.rollback tx) where
  fresh := by
    rw [hminted]
    exact htable.fresh
  built := by
    rw [hminted]
    exact htable.built
  committed id row hrow := by
    rw [committed_rollback] at hrow
    obtain ⟨hok, hplaced⟩ := htable.committed id row hrow
    exact ⟨hok.mono hle, hle.placed _ hplaced⟩
  held id owner row hheld := by
    obtain ⟨hne, hheld⟩ := held_rollback_iff.mp hheld
    obtain ⟨hok, hwhose⟩ := htable.held id owner row hheld
    rw [committed_rollback]
    exact ⟨hok.mono hle, hwhose.imp_right (henqueued owner _ hne)⟩
  deleted id owner hheld := by
    obtain ⟨hne, hheld⟩ := held_rollback_iff.mp hheld
    obtain ⟨old, hold, hdelivered⟩ := htable.deleted id owner hheld
    rw [committed_rollback]
    exact ⟨old, hold, hle.delivered _ hdelivered⟩

/-- A row that a COMMIT takes away was delivered. -/
theorem Kept.commit (hkept : Kept facts outbox orderId) (htable : TableOk facts outbox)
    (tx : Call) :
    Kept facts (outbox.commit tx) orderId := by
  rcases hkept with ⟨id, row, hrow, rfl⟩ | hdelivered
  · have hok := (htable.committed id row hrow).1
    rcases commit_cases outbox tx id with ⟨version, hheld, hcell⟩ | ⟨-, hcell⟩
    · cases version with
      | some version =>
          refine .inl ⟨id, version, by rw [Table.committed, hcell], ?_⟩
          rw [(htable.held id tx version hheld).1.payload_eq hok]
      | none =>
          obtain ⟨old, hold, hdelivered⟩ := htable.deleted id tx hheld
          have heq : old = row := by simpa [hrow] using hold.symm
          right
          rw [← (htable.built id _ hok.minted).2, ← heq]
          exact hdelivered
    · exact .inl ⟨id, row, by rwa [Table.committed, hcell], rfl⟩
  · exact .inr hdelivered

/-! ### The passes of the relays -/

/-- A row that a pass has read. -/
structure EnvelopeOk (facts : Facts) (row : Envelope) : Prop where
  minted : facts.minted row.id = some row.payload
  type : row.type = routingKeyOrderPlaced
  placed : facts.placed row.payload.data.orderId

theorem EnvelopeOk.mono {row : Envelope} (hrow : EnvelopeOk facts row) (hle : facts.Le facts') :
    EnvelopeOk facts' row where
  minted := hle.minted _ _ hrow.minted
  type := hrow.type
  placed := hle.placed _ hrow.placed

/-- The event of the row is delivered. -/
def SentOk (facts : Facts) (id : OutboxId) : Prop :=
  ∃ event, facts.minted id = some event ∧ facts.delivered event.eventId

theorem SentOk.mono (hsent : SentOk facts id) (hle : facts.Le facts') : SentOk facts' id := by
  obtain ⟨event, hminted, hdelivered⟩ := hsent
  exact ⟨event, hle.minted _ _ hminted, hle.delivered _ hdelivered⟩

structure PassOk (facts : Facts) (phase : Relay.Phase) : Prop where
  wellFormed : Relay.WellFormed phase
  rows : ∀ pass, phase.pass = some pass → ∀ row ∈ pass.rows, EnvelopeOk facts row
  sent : ∀ pass, phase.pass = some pass → ∀ id ∈ pass.sentIds, SentOk facts id

theorem PassOk.mono {phase : Relay.Phase} (hpass : PassOk facts phase) (hle : facts.Le facts') :
    PassOk facts' phase where
  wellFormed := hpass.wellFormed
  rows pass hsome row hrow := (hpass.rows pass hsome row hrow).mono hle
  sent pass hsome id hid := (hpass.sent pass hsome id hid).mono hle

theorem passOk_idle : PassOk facts .idle where
  wellFormed := trivial
  rows := by simp [Relay.Phase.pass]
  sent := by simp [Relay.Phase.pass]

/-- The row that is being published is one of those read. -/
theorem PassOk.awaiting {pass : Relay.Pass} {row : Envelope} {rest : List Envelope}
    (hpass : PassOk facts (.awaiting pass row rest)) : EnvelopeOk facts row := by
  obtain ⟨-, -, sent, hrows, -⟩ := hpass.wellFormed
  apply hpass.rows pass rfl row
  rw [hrows]
  simp

section Runs

variable {before : Relay.State} {action : Relay.Action} {phase next : Relay.Phase}
  {confirmed : List (Call × OutboxId)}

theorem TableOk.envelope (htable : TableOk facts outbox)
    (hnot : ∀ orderId, ¬ facts.enqueued tx orderId) (hview : outbox.view tx id = some row) :
    EnvelopeOk facts (Relay.envelope id row) := by
  obtain ⟨hok, old, hold, hsame⟩ := htable.view hnot hview
  refine ⟨hok.minted, hok.type, ?_⟩
  change facts.placed row.payload.data.orderId
  rw [← hsame]
  exact (htable.committed id old hold).2

theorem PassOk.step (hpass : PassOk facts phase)
    (hruns : Relay.Runs before action call phase next outbox confirmed)
    (htable : TableOk facts before.outbox) (hnot : ∀ orderId, ¬ facts.enqueued call orderId)
    (haccepted : ∀ pass row rest, action = .settle call .confirmed →
      phase = .awaiting pass row rest →
      SentOk facts row.id) : PassOk facts next := by
  have hwellFormed := hpass.wellFormed.step hruns
  cases hruns with
  | began call options now =>
      exact ⟨hwellFormed, by simp [Relay.Phase.pass], by simp [Relay.Phase.pass]⟩
  | selectedUnlocked call pass rows hmode hnodup hrows =>
      refine ⟨hwellFormed, ?_, ?_⟩
      · rintro _ ⟨⟩ row hrow
        obtain ⟨version, hview, heq⟩ := hrows row hrow
        rw [heq]
        exact htable.envelope hnot hview
      · rintro _ ⟨⟩
        exact hpass.sent pass rfl
  | locked call pass id candidate row candidates hlock hview hwanted =>
      refine ⟨hwellFormed, ?_, ?_⟩
      · rintro _ ⟨⟩ other hother
        rcases List.mem_append.mp hother with hold | hnew
        · exact hpass.rows pass rfl other hold
        · rw [List.mem_singleton.mp hnew]
          exact htable.envelope hnot hview
      · rintro _ ⟨⟩
        exact hpass.sent pass rfl
  | confirmed call pass row rest =>
      refine ⟨hwellFormed, ?_, ?_⟩
      · rintro _ ⟨⟩
        exact hpass.rows pass rfl
      · rintro _ ⟨⟩ id hid
        rcases List.mem_append.mp hid with hold | hnew
        · exact hpass.sent pass rfl id hold
        · rw [List.mem_singleton.mp hnew]
          exact haccepted pass row rest rfl rfl
  | failed call pass row rest outcome houtcome =>
      refine ⟨hwellFormed, ?_, ?_⟩
      · rintro _ ⟨⟩
        exact hpass.rows pass rfl
      · rintro _ ⟨⟩
        exact hpass.sent pass rfl
  | aborted call phase hopen | crashed call phase hopen =>
      exact ⟨hwellFormed, by simp [Relay.Phase.pass], by simp [Relay.Phase.pass]⟩
  | enqueued call id data occurredAt now houtcome hnone => exact hpass
  | _ => exact ⟨hwellFormed, hpass.rows, hpass.sent⟩

/-- What a pass writes keeps the payload, and what it marks was delivered. -/
theorem TableOk.relay (htable : TableOk facts before.outbox)
    (hruns : Relay.Runs before action call phase next outbox confirmed) (hpass : PassOk facts phase)
    (hnot : ∀ orderId, ¬ facts.enqueued call orderId) (henqueue : ∀ id data occurredAt now,
      action ≠ .enqueue call id data occurredAt now) :
    TableOk facts outbox ∧ ∀ orderId, Kept facts before.outbox orderId →
      Kept facts outbox orderId := by
  have hput : ∀ (id : OutboxId) (row row' : OutboxRow), before.outbox.view call id = some row →
      row'.payload = row.payload → row'.type = row.type →
      (row'.publishedAt.isSome = true → row.publishedAt.isSome = true ∨ SentOk facts id) →
      TableOk facts (before.outbox.put call id (some row')) ∧
        ∀ orderId, Kept facts before.outbox orderId →
        Kept facts (before.outbox.put call id (some row')) orderId := by
    intro id row row' hview hpayload htype hpublished
    obtain ⟨hok, old, hold, -⟩ := htable.view hnot hview
    refine ⟨htable.put_some ⟨hpayload ▸ hok.minted, htype ▸ hok.type, ?_⟩ ⟨old, hold⟩, ?_⟩
    · intro hset
      rw [hpayload]
      rcases hpublished hset with hset | ⟨event, hminted, hdelivered⟩
      · exact hok.published hset
      · rw [hok.minted, Option.some.injEq] at hminted
        rw [hminted]
        exact hdelivered
    · intro orderId hkept
      exact hkept.congr fun id => committed_put
  cases hruns with
  | locked call pass id candidate row candidates hlock hview hwanted =>
      exact hput id row row hview rfl rfl .inl
  | dropped call pass id candidate row candidates hlock hview =>
      exact hput id row row hview rfl rfl .inl
  | marked call pass id rest row hlock hview =>
      obtain ⟨-, visited, hvisited⟩ := hpass.wellFormed
      refine hput id row _ hview rfl rfl fun _ => .inr (hpass.sent pass rfl id ?_)
      rw [hvisited]
      simp
  | counted call pass failedId row hlock hview => exact hput failedId row _ hview rfl rfl .inl
  | committed call pass =>
      refine ⟨htable.commit facts.le_refl rfl ?_ ?_, fun orderId hkept => hkept.commit htable call⟩
      · exact fun orderId hmine => absurd hmine (hnot orderId)
      · exact fun other orderId _ => id
  | aborted call phase hopen | crashed call phase hopen =>
      refine ⟨htable.rollback facts.le_refl rfl fun other orderId _ => id, ?_⟩
      exact fun orderId hkept => hkept.congr fun id => committed_rollback
  | enqueued call id data occurredAt now houtcome hnone => exact absurd rfl (henqueue _ _ _ _)
  | _ => exact ⟨htable, fun orderId => id⟩

end Runs

end Marketplace.Pipeline
