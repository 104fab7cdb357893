import Marketplace.Outbox.RelayLocks

/-!
# Concurrent relays send a row once

With a lock clause, and as long as nothing fails, a row is in one batch at a time and is published
when its pass commits. So no second pass gets it.
-/

namespace Marketplace.Relay

open ReadCommitted ReadCommitted.Table Transition

variable {initial : Table Call OutboxId OutboxRow} {before after state : State} {call : Call}
  {outbox : Table Call OutboxId OutboxRow} {action : Action} {phase next : Phase}
  {confirmed : List (Call × OutboxId)} {id : OutboxId} {row : OutboxRow}

/-- Passes with a lock clause that neither crash nor throw nor time out a publish. -/
def Smooth (_ : State) : Action → Prop
  | .relayOnce _ options _ => options.lockMode ≠ .none
  | .settle _ outcome => outcome ≠ .timedOut
  | .abort _ | .crash _ => False
  | _ => True

instance (state : State) (action : Action) : Decidable (Smooth state action) :=
  match action with
  | .relayOnce _ options _ => inferInstanceAs (Decidable (options.lockMode ≠ .none))
  | .settle _ outcome => inferInstanceAs (Decidable (outcome ≠ .timedOut))
  | .abort _ | .crash _ => inferInstanceAs (Decidable False)
  | .select _ | .lock _ | .endSelect _ | .publish _ | .endLoop _ | .afterPublish _ | .mark _
  | .markFailed _ | .commit _ | .enqueue _ _ _ _ _ => inferInstanceAs (Decidable True)

/-! ### What a step changes -/

theorem written_publishedAt (hset : (written phase id row).publishedAt.isSome = true) :
    row.publishedAt.isSome = true ∨ id ∈ phase.sentIds := by
  unfold written at hset
  split at hset
  · split at hset
    · rename_i hin
      exact .inr hin.1
    · exact .inl hset
  · split at hset
    · rename_i hin
      exact .inr hin
    · exact .inl hset
  · split at hset
    · rename_i hin
      exact .inr hin
    · split at hset <;> exact .inl hset
  · exact .inl hset

theorem publishedAt_written (hset : row.publishedAt.isSome = true) :
    (written phase id row).publishedAt.isSome = true := by
  unfold written
  split <;> (try split) <;> (try split) <;> first | rfl | exact hset

/-- Only a COMMIT of a pass, or a new row, changes what is committed. -/
theorem Runs.committed_cases (howns : Owns before.outbox call phase)
    (hfree : phase = .idle → ∀ id version, (before.outbox.cell id).held ≠ some (call, version))
    (hruns : Runs before action call phase next outbox confirmed) (id : OutboxId) :
    outbox.committed id = before.outbox.committed id ∨
      (∃ pass row, action = .commit call ∧ phase = .committing pass ∧ next = .returned pass ∧
        before.outbox.committed id = some row ∧
        outbox.committed id = some (written phase id row)) ∨
      ∃ data occurredAt now, action = .enqueue call id data occurredAt now ∧
        before.outbox.committed id = none ∧
        outbox.committed id = some (enqueueOrderPlaced data occurredAt now) := by
  cases hruns with
  | locked call pass id candidate row candidates hlock hview hwanted => exact .inl committed_put
  | dropped call pass id candidate row candidates hlock hview => exact .inl committed_put
  | marked call pass id rest row hlock hview => exact .inl committed_put
  | counted call pass failedId row hlock hview => exact .inl committed_put
  | committed call pass =>
      rcases commit_cases before.outbox call id with ⟨version, hheld, hcell⟩ | ⟨-, hcell⟩
      · obtain ⟨row, hrow, rfl⟩ := howns.held rfl id version hheld
        exact .inr (.inl ⟨pass, row, rfl, rfl, rfl, hrow, congrArg Cell.committed hcell⟩)
      · exact .inl (congrArg Cell.committed hcell)
  | aborted call phase hopen => exact .inl committed_rollback
  | crashed call phase hopen => exact .inl committed_rollback
  | enqueued call new data occurredAt now houtcome hnone =>
      by_cases heq : id = new
      · subst heq
        refine .inr (.inr ⟨data, occurredAt, now, rfl, hnone, ?_⟩)
        exact congrArg Cell.committed (commit_of_held (by rw [cell_put_self]))
      · refine .inl (congrArg Cell.committed ?_)
        rw [commit_of_not_held, cell_put_of_ne heq]
        intro version hheld
        rw [cell_put_of_ne heq] at hheld
        exact hfree rfl id version hheld
  | _ => exact .inl rfl

theorem Runs.released (hruns : Runs before action call phase next outbox confirmed)
    (hclosed : next.isOpen = false) (id : OutboxId) (version : Option OutboxRow) :
    (outbox.cell id).held ≠ some (call, version) := by
  cases hruns with
  | committed call pass => exact fun hheld => (held_commit_iff.mp hheld).1 rfl
  | aborted call phase hopen => exact fun hheld => (held_rollback_iff.mp hheld).1 rfl
  | crashed call phase hopen => exact fun hheld => (held_rollback_iff.mp hheld).1 rfl
  | enqueued call id data occurredAt now houtcome hnone =>
      exact fun hheld => (held_commit_iff.mp hheld).1 rfl
  | _ => cases hclosed

theorem Runs.not_returned (hruns : Runs before action call phase next outbox confirmed) :
    phase.isReturned = false := by
  cases hruns with
  | aborted call phase hopen => cases phase <;> first | rfl | cases hopen
  | crashed call phase hopen => cases phase <;> first | rfl | cases hopen
  | _ => rfl

/-- The confirmations and the ids a pass has collected grow together. -/
theorem Runs.sentIds_cases (hruns : Runs before action call phase next outbox confirmed)
    (hsmooth : Smooth before action) :
    (confirmed = before.confirmed ∧ next.sentIds = phase.sentIds) ∨
      ∃ pass row rest, phase = .awaiting pass row rest ∧
        confirmed = before.confirmed ++ [(call, row.id)] ∧
        next.sentIds = phase.sentIds ++ [row.id] := by
  cases hruns with
  | confirmed call pass row rest => exact .inr ⟨pass, row, rest, rfl, rfl, rfl⟩
  | aborted call phase hopen => exact hsmooth.elim
  | crashed call phase hopen => exact hsmooth.elim
  | _ => exact .inl ⟨rfl, rfl⟩

theorem Runs.lockMode (hruns : Runs before action call phase next outbox confirmed)
    (hsmooth : Smooth before action) {pass : Pass} (hpass : next.pass = some pass) :
    pass.options.lockMode ≠ .none ∨
      ∃ pass', phase.pass = some pass' ∧ pass'.options = pass.options := by
  cases hruns with
  | began call options now =>
      cases hpass
      exact .inl hsmooth
  | _ =>
      cases hpass
      try exact .inr ⟨_, rfl, rfl⟩

/-! ### The invariant -/

structure Inv (initial : Table Call OutboxId OutboxRow) (state : State) : Prop where
  wellFormed : ∀ call, WellFormed (state.passes call)
  owns : ∀ call, Owns state.outbox call (state.passes call)
  holder : ∀ id call version, (state.outbox.cell id).held = some (call, version) →
    (state.passes call).isOpen = true
  lockMode : ∀ call pass, (state.passes call).pass = some pass → pass.options.lockMode ≠ .none
  logged : ∀ call id, (call, id) ∈ state.confirmed ↔ id ∈ (state.passes call).sentIds
  once : (state.confirmed.map Prod.snd).Nodup
  /-- What a pass that has returned has sent is published. -/
  marked : ∀ call, (state.passes call).isReturned = true → ∀ id ∈ (state.passes call).sentIds,
    ∃ row, state.outbox.committed id = some row ∧ row.publishedAt.isSome = true
  origin : ∀ id row, state.outbox.committed id = some row → row.publishedAt.isSome = true →
    (∃ old, initial.committed id = some old ∧ old.publishedAt.isSome = true) ∨
      ∃ call, (call, id) ∈ state.confirmed ∧ (state.passes call).isReturned = true
  kept : ∀ id old, initial.committed id = some old → old.publishedAt.isSome = true →
    ∃ row, state.outbox.committed id = some row ∧ row.publishedAt.isSome = true

theorem inv_init (hquiet : initial.Quiet) : Inv initial (State.init initial) where
  wellFormed _ := trivial
  owns _ := owns_of_closed rfl
  holder id call version hheld := by
    rw [State.init, hquiet id] at hheld
    cases hheld
  lockMode _ _ hpass := by cases hpass
  logged _ _ := by simp [State.init, Phase.sentIds, Phase.pass]
  once := List.nodup_nil
  marked _ hreturned := by cases hreturned
  origin id row hrow hset := .inl ⟨row, hrow, hset⟩
  kept id old hold hset := ⟨old, hold, hset⟩

theorem mem_batch_of_sent (hwf : WellFormed phase) (hsent : id ∈ phase.sentIds) :
    ∃ pass, phase.pass = some pass ∧ ∃ row ∈ pass.rows, row.id = id := by
  have hmem : ∀ {pass : Pass} {sent rest : List Envelope}, pass.rows = sent ++ rest →
      sent.map Envelope.id = pass.sentIds → id ∈ pass.sentIds → ∃ row ∈ pass.rows, row.id = id := by
    intro pass sent rest hrows hids hid
    rw [← hids] at hid
    obtain ⟨row, hrow, hrowId⟩ := List.mem_map.mp hid
    exact ⟨row, hrows ▸ List.mem_append_left _ hrow, hrowId⟩
  cases phase with
  | idle => cases hsent
  | threw => cases hsent
  | crashed => cases hsent
  | began pass =>
      rw [show (Phase.began pass).sentIds = [] from hwf.2.1] at hsent
      cases hsent
  | locking pass candidates =>
      rw [show (Phase.locking pass candidates).sentIds = [] from hwf.2.1] at hsent
      cases hsent
  | publishing pass rest =>
      obtain ⟨-, -, sent, hrows, hids⟩ := hwf
      exact ⟨pass, rfl, hmem hrows hids hsent⟩
  | awaiting pass row rest =>
      obtain ⟨-, -, sent, hrows, hids⟩ := hwf
      exact ⟨pass, rfl, hmem hrows hids hsent⟩
  | marking pass rest =>
      obtain ⟨sent, unsent, hrows, hids, -⟩ := hwf.1.split
      exact ⟨pass, rfl, hmem hrows hids hsent⟩
  | markingFailed pass failedId =>
      obtain ⟨sent, unsent, hrows, hids, -⟩ := hwf.1.split
      exact ⟨pass, rfl, hmem hrows hids hsent⟩
  | published pass =>
      obtain ⟨sent, unsent, hrows, hids, -⟩ := Done.split hwf
      exact ⟨pass, rfl, hmem hrows hids hsent⟩
  | committing pass =>
      obtain ⟨sent, unsent, hrows, hids, -⟩ := Done.split hwf
      exact ⟨pass, rfl, hmem hrows hids hsent⟩
  | returned pass =>
      obtain ⟨sent, unsent, hrows, hids, -⟩ := Done.split hwf
      exact ⟨pass, rfl, hmem hrows hids hsent⟩

/-- An open pass holds the rows that it has sent, and they are not published yet. -/
theorem Inv.held_of_sent (hinv : Inv initial state) (hopen : (state.passes call).isOpen = true)
    (hsent : id ∈ (state.passes call).sentIds) :
    ∃ current, state.outbox.cell id =
        ⟨some current, some (call, some (written (state.passes call) id current))⟩ ∧
      current.publishedAt = none := by
  obtain ⟨pass, hpass, row, hrow, rfl⟩ := mem_batch_of_sent (hinv.wellFormed call) hsent
  exact (hinv.owns call).batch hopen pass hpass (hinv.lockMode call pass hpass) row hrow

theorem isReturned_of_sent (hsent : id ∈ phase.sentIds) (hclosed : phase.isOpen = false) :
    phase.isReturned = true := by
  cases phase with
  | returned => rfl
  | idle | threw | crashed => cases hsent
  | _ => cases hclosed

/-- The row that a pass is about to send has not been sent by anybody. -/
theorem Inv.not_confirmed (hinv : Inv initial state) {pass : Pass} {row : Envelope}
    {rest : List Envelope} (hphase : state.passes call = .awaiting pass row rest) :
    row.id ∉ state.confirmed.map Prod.snd := by
  intro hmem
  obtain ⟨⟨other, id⟩, hconfirmed, hid⟩ := List.mem_map.mp hmem
  subst hid
  have hwf := hinv.wellFormed call
  rw [hphase] at hwf
  obtain ⟨hnodup, -, sent, hrows, hids⟩ := hwf
  obtain ⟨current, hcell, hnone⟩ := (hinv.owns call).batch (by rw [hphase]; rfl) pass
    (by rw [hphase]; rfl) (hinv.lockMode call pass (by rw [hphase]; rfl)) row
    (by rw [hrows]; exact List.mem_append_right _ List.mem_cons_self)
  have hsent := (hinv.logged other row.id).mp hconfirmed
  cases hopen : (state.passes other).isOpen with
  | true =>
      obtain ⟨current', hcell', -⟩ := hinv.held_of_sent hopen hsent
      have hsame : other = call := by
        rw [hcell] at hcell'
        cases hcell'
        rfl
      rw [hsame, hphase] at hsent
      rw [hrows, List.map_append, hids] at hnodup
      exact (List.nodup_append.mp hnodup).2.2 row.id hsent row.id
        (List.mem_map_of_mem List.mem_cons_self) rfl
  | false =>
      obtain ⟨published, hpublished, hset⟩ :=
        hinv.marked other (isReturned_of_sent hsent hopen) row.id hsent
      rw [Table.committed, hcell] at hpublished
      cases hpublished
      rw [hnone] at hset
      cases hset

theorem Runs.eq_of_returned (hruns : Runs before action call phase next outbox confirmed)
    (hreturned : next.isReturned = true) : ∃ pass, phase = .committing pass ∧
      next = .returned pass ∧ outbox = before.outbox.commit call := by
  cases hruns with
  | committed call pass => exact ⟨pass, rfl, rfl, rfl⟩
  | _ => cases hreturned

theorem published_mono (id : OutboxId) (howns : Owns before.outbox call phase)
    (hfree : phase = .idle → ∀ id version, (before.outbox.cell id).held ≠ some (call, version))
    (hruns : Runs before action call phase next outbox confirmed)
    (hrow : ∃ row, before.outbox.committed id = some row ∧ row.publishedAt.isSome = true) :
    ∃ row, outbox.committed id = some row ∧ row.publishedAt.isSome = true := by
  obtain ⟨row, hcommitted, hset⟩ := hrow
  rcases hruns.committed_cases howns hfree id with hsame | ⟨pass, old, -, -, -, hold, hnew⟩ |
    ⟨data, occurredAt, now, -, hnone, -⟩
  · exact ⟨row, hsame.trans hcommitted, hset⟩
  · rw [hcommitted] at hold
    cases hold
    exact ⟨_, hnew, publishedAt_written hset⟩
  · rw [hcommitted] at hnone
    cases hnone

section Step

variable (hinv : Inv initial before) (hsmooth : Smooth before action)
  (hphase : before.passes call = phase)
  (hruns : Runs before action call phase next outbox confirmed)

include hinv hphase in
theorem Inv.free_of_idle (hidle : phase = .idle) (id : OutboxId) (version : Option OutboxRow) :
    (before.outbox.cell id).held ≠ some (call, version) := by
  intro hheld
  have hopen := hinv.holder id call version hheld
  rw [hphase, hidle] at hopen
  cases hopen

include hinv hphase hruns

theorem Inv.published_step (id : OutboxId)
    (hrow : ∃ row, before.outbox.committed id = some row ∧ row.publishedAt.isSome = true) :
    ∃ row, outbox.committed id = some row ∧ row.publishedAt.isSome = true :=
  published_mono id (hphase ▸ hinv.owns call) (hinv.free_of_idle hphase) hruns hrow

omit hinv in
/-- A pass that has returned does nothing any more. -/
theorem ne_of_returned {other : Call} (hother : (before.passes other).isReturned = true) :
    other ≠ call := by
  rintro rfl
  rw [hphase, hruns.not_returned] at hother
  cases hother

include hsmooth

omit hinv hphase in
theorem confirmed_grows : ∀ entry ∈ before.confirmed, entry ∈ confirmed := by
  intro entry hentry
  rcases hruns.sentIds_cases hsmooth with ⟨rfl, -⟩ | ⟨_, _, _, -, rfl, -⟩
  · exact hentry
  · exact List.mem_append_left _ hentry

theorem Inv.logged_step (other : Call) (id : OutboxId) : (other, id) ∈ confirmed ↔
    id ∈ (Function.update before.passes call next other).sentIds := by
  by_cases heq : other = call
  · subst heq
    rw [Function.update_self]
    rcases hruns.sentIds_cases hsmooth with ⟨rfl, hsent⟩ | ⟨_, row, _, -, rfl, hsent⟩
    · rw [hsent, ← hphase]
      exact hinv.logged other id
    · rw [hsent, ← hphase, List.mem_append, List.mem_append, hinv.logged other id]
      simp
  · rw [Function.update_of_ne heq, ← hinv.logged other id]
    rcases hruns.sentIds_cases hsmooth with ⟨rfl, -⟩ | ⟨_, row, _, -, rfl, -⟩
    · exact Iff.rfl
    · simp [heq]

theorem Inv.once_step : (confirmed.map Prod.snd).Nodup := by
  rcases hruns.sentIds_cases hsmooth with ⟨rfl, -⟩ | ⟨pass, row, rest, rfl, rfl, -⟩
  · exact hinv.once
  · rw [List.map_append, List.nodup_append]
    refine ⟨hinv.once, List.nodup_singleton _, ?_⟩
    rintro id hold id' hnew rfl
    rw [List.mem_singleton.mp hnew] at hold
    exact hinv.not_confirmed hphase hold

omit hsmooth in
/-- The COMMIT of a pass publishes what it has sent. -/
theorem Inv.marked_step {other : Call}
    (hother : (Function.update before.passes call next other).isReturned = true)
    (hsent : id ∈ (Function.update before.passes call next other).sentIds) :
    ∃ row, outbox.committed id = some row ∧ row.publishedAt.isSome = true := by
  by_cases heq : other = call
  · subst heq
    rw [Function.update_self] at hother hsent
    obtain ⟨pass, rfl, rfl, rfl⟩ := hruns.eq_of_returned hother
    obtain ⟨current, hcell, -⟩ := hinv.held_of_sent (by rw [hphase]; rfl) (by rwa [hphase])
    rw [hphase] at hcell
    refine ⟨_, congrArg Cell.committed (commit_of_held (congrArg Cell.held hcell)), ?_⟩
    have hin : id ∈ pass.sentIds := hsent
    rw [written, if_pos hin]
    rfl
  · rw [Function.update_of_ne heq] at hother hsent
    exact hinv.published_step hphase hruns id (hinv.marked other hother id hsent)

theorem Inv.origin_step (hrow : outbox.committed id = some row)
    (hset : row.publishedAt.isSome = true) :
    (∃ old, initial.committed id = some old ∧ old.publishedAt.isSome = true) ∨
      ∃ other, (other, id) ∈ confirmed ∧
        (Function.update before.passes call next other).isReturned = true := by
  have hbefore : ∀ old, before.outbox.committed id = some old → old.publishedAt.isSome = true →
      (∃ old, initial.committed id = some old ∧ old.publishedAt.isSome = true) ∨
        ∃ other, (other, id) ∈ confirmed ∧
          (Function.update before.passes call next other).isReturned = true := by
    intro old hold hset
    rcases hinv.origin id old hold hset with hinitial | ⟨other, hconfirmed, hother⟩
    · exact .inl hinitial
    · refine .inr ⟨other, confirmed_grows hsmooth hruns _ hconfirmed, ?_⟩
      rwa [Function.update_of_ne (ne_of_returned hphase hruns hother)]
  rcases hruns.committed_cases (hphase ▸ hinv.owns call) (hinv.free_of_idle hphase) id with
    hsame | ⟨pass, old, -, hcommitting, hnext, hold, hnew⟩ | ⟨data, occurredAt, now, -, -, hnew⟩
  · exact hbefore row (hsame.symm.trans hrow) hset
  · rw [hrow] at hnew
    cases hnew
    rcases written_publishedAt hset with hset' | hsent
    · exact hbefore old hold hset'
    · refine .inr ⟨call, ?_, ?_⟩
      · rw [hinv.logged_step hsmooth hphase hruns, Function.update_self, hnext]
        rwa [hcommitting] at hsent
      · rw [Function.update_self, hnext]
        rfl
  · rw [hrow] at hnew
    cases hnew
    cases hset

theorem Inv.step : Inv initial ⟨outbox, Function.update before.passes call next, confirmed⟩ where
  wellFormed other := by
    dsimp only
    by_cases heq : other = call
    · rw [heq, Function.update_self]
      exact (hphase ▸ hinv.wellFormed call).step hruns
    · rw [Function.update_of_ne heq]
      exact hinv.wellFormed other
  owns other := by
    dsimp only
    by_cases heq : other = call
    · rw [heq, Function.update_self]
      exact (hphase ▸ hinv.owns call).step (hphase ▸ hinv.wellFormed call)
        (hinv.free_of_idle hphase)
        hruns
    · rw [Function.update_of_ne heq]
      exact (hinv.owns other).other hruns.frame heq
  holder id owner version hheld := by
    dsimp only at hheld ⊢
    by_cases heq : owner = call
    · subst heq
      rw [Function.update_self]
      by_contra hclosed
      exact hruns.released (Bool.eq_false_iff.mpr hclosed) id version hheld
    · rw [Function.update_of_ne heq]
      exact hinv.holder id owner version (hruns.frame.given id owner version heq hheld)
  lockMode other pass hpass := by
    dsimp only at hpass
    by_cases heq : other = call
    · rw [heq, Function.update_self] at hpass
      rcases hruns.lockMode hsmooth hpass with hmode | ⟨pass', hpass', hoptions⟩
      · exact hmode
      · rw [← hoptions]
        exact hinv.lockMode call pass' (by rw [hphase, hpass'])
    · rw [Function.update_of_ne heq] at hpass
      exact hinv.lockMode other pass hpass
  logged := hinv.logged_step hsmooth hphase hruns
  once := hinv.once_step hsmooth hphase hruns
  marked _ hother _ hsent := hinv.marked_step hphase hruns hother hsent
  origin _ _ hrow hset := hinv.origin_step hsmooth hphase hruns hrow hset
  kept id old hold hset := hinv.published_step hphase hruns id (hinv.kept id old hold hset)

end Step

theorem inv_reach (hquiet : initial.Quiet)
    (hreach : Reach step Smooth (State.init initial) state) : Inv initial state := by
  refine hreach.invariant (Inv initial) (inv_init hquiet) ?_
  intro before action after _ hinv hsmooth hstep
  obtain ⟨call, phase, next, outbox, confirmed, hphase, rfl, hruns⟩ := step_runs hstep
  exact hinv.step hsmooth hphase hruns

/-! ### What a run has confirmed and published -/

structure SentOnce (initial : Table Call OutboxId OutboxRow) (state : State) : Prop where
  once : ∀ id, (state.confirmed.filter fun entry => entry.2 = id).length ≤ 1
  /-- A row that was not published before the run is published if and only if a pass was told so and
  has committed. -/
  published : ∀ id row, state.outbox.committed id = some row → (row.publishedAt.isSome = true ↔
    (∃ old, initial.committed id = some old ∧ old.publishedAt.isSome = true) ∨
      ∃ call, (call, id) ∈ state.confirmed ∧ (state.passes call).isReturned = true)
  /-- The same for a mark that is not committed yet. -/
  marking : ∀ id call old row,
    state.outbox.cell id = ⟨some old, some (call, some row)⟩ → old.publishedAt = none →
    row.publishedAt.isSome = true → (call, id) ∈ state.confirmed
  /-- A pass rewrites rows of its batch only, those it just locks stay as they are. -/
  within : ∀ id call version, (state.outbox.cell id).held = some (call, version) →
    version ≠ state.outbox.committed id → id ∈ (state.passes call).batch
  untouched : ∀ action after, step state action = some after → ∀ id,
    after.outbox.committed id ≠ state.outbox.committed id →
    (∃ call, action = .commit call ∧ id ∈ (state.passes call).batch) ∨
      ∃ call data occurredAt now, action = .enqueue call id data occurredAt now

theorem mem_batch_of_written (hwf : WellFormed phase) (hne : written phase id row ≠ row) :
    id ∈ phase.batch := by
  have hbatch : ∀ {pass : Pass}, phase.pass = some pass → (∃ row ∈ pass.rows, row.id = id) →
      id ∈ phase.batch := by
    rintro pass hpass ⟨row, hrow, rfl⟩
    rw [Phase.batch, hpass]
    exact List.mem_map_of_mem hrow
  by_cases hsent : id ∈ phase.sentIds
  · obtain ⟨pass, hpass, hrow⟩ := mem_batch_of_sent hwf hsent
    exact hbatch hpass hrow
  · cases phase with
    | marking pass rest => exact absurd (if_neg fun hin => hsent hin.1) hne
    | markingFailed pass failedId => exact absurd (if_neg hsent) hne
    | committing pass =>
        by_cases hfailed : pass.failedId = some id
        · obtain ⟨sent, unsent, hrows, -, hunsent⟩ := Done.split hwf
          obtain ⟨row, hrow, hid⟩ := List.mem_map.mp (hunsent id hfailed)
          exact hbatch rfl ⟨row, hrows ▸ List.mem_append_right _ hrow, hid⟩
        · refine absurd ?_ hne
          have hout : id ∉ pass.sentIds := hsent
          rw [written, if_neg hout, if_neg hfailed]
    | _ => exact absurd rfl hne

/-- Concurrent relays do not send a row twice unless something fails. -/
theorem relay_sends_once (initial : Table Call OutboxId OutboxRow) (hquiet : initial.Quiet)
    {state : State} (hreach : Reach step Smooth (State.init initial) state) :
    SentOnce initial state := by
  have hinv := inv_reach hquiet hreach
  refine ⟨?_, ?_, ?_, ?_, ?_⟩
  · intro id
    have hcount := List.nodup_iff_count_le_one.mp hinv.once id
    rwa [List.count_eq_length_filter, List.filter_map, List.length_map] at hcount
  · intro id row hrow
    constructor
    · exact hinv.origin id row hrow
    · rintro (⟨old, hold, hset⟩ | ⟨call, hconfirmed, hreturned⟩)
      · obtain ⟨row', hrow', hset'⟩ := hinv.kept id old hold hset
        rw [hrow] at hrow'
        cases hrow'
        exact hset'
      · obtain ⟨row', hrow', hset'⟩ :=
          hinv.marked call hreturned id ((hinv.logged call id).mp hconfirmed)
        rw [hrow] at hrow'
        cases hrow'
        exact hset'
  · intro id call old row hcell hnone hset
    have hopen := hinv.holder id call _ (congrArg Cell.held hcell)
    obtain ⟨current, hcurrent, hversion⟩ :=
      (hinv.owns call).held hopen id _ (congrArg Cell.held hcell)
    rw [Table.committed, hcell] at hcurrent
    cases hcurrent
    cases hversion
    rcases written_publishedAt hset with hset' | hsent
    · rw [hnone] at hset'
      cases hset'
    · exact (hinv.logged call id).mpr hsent
  · intro id call version hheld hne
    have hopen := hinv.holder id call version hheld
    obtain ⟨current, hcurrent, rfl⟩ := (hinv.owns call).held hopen id version hheld
    apply mem_batch_of_written (hinv.wellFormed call)
    intro heq
    rw [heq] at hne
    exact hne hcurrent.symm
  · intro action after hstep id hchanged
    obtain ⟨call, phase, next, outbox, confirmed, rfl, rfl, hruns⟩ := step_runs hstep
    have hfree : state.passes call = .idle →
        ∀ id version, (state.outbox.cell id).held ≠ some (call, version) := by
      intro hidle id version hheld
      have hopen := hinv.holder id call version hheld
      rw [hidle] at hopen
      cases hopen
    rcases hruns.committed_cases (hinv.owns call) hfree id with hsame |
      ⟨pass, row, haction, -, -, hold, hnew⟩ | ⟨data, occurredAt, now, haction, -⟩
    · exact absurd hsame hchanged
    · have hne : written (state.passes call) id row ≠ row := by
        intro heq
        rw [heq] at hnew
        exact hchanged (hnew.trans hold.symm)
      exact .inl ⟨call, haction, mem_batch_of_written (hinv.wellFormed call) hne⟩
    · exact .inr ⟨call, data, occurredAt, now, haction⟩

/-- Three rows that nobody has published, created one after the other. -/
def threeRows : Table Call OutboxId OutboxRow :=
  let row (orderId : OrderId) : OutboxRow :=
    enqueueOrderPlaced ⟨orderId, "a@shop.test", 100, "UAH", [⟨3, 1⟩]⟩ orderId orderId
  Table.ofRows [(11, row 1), (12, row 2), (13, row 3)]

/-- Three passes with the same snapshot. The second skips what the first has locked, the third waits
for both, drops what they have published and sends the row that the first was refused. -/
def overlapTrace : List Action :=
  let options (lockMode : LockMode) : RelayOptions := ⟨2, lockMode, none⟩
  [.relayOnce 0 (options .skipLocked) 20, .relayOnce 1 (options .skipLocked) 21,
    .relayOnce 2 (options .forUpdate) 22, .select 0, .select 1, .select 2,
    .lock 0, .lock 0, .endSelect 0, .lock 1, .lock 1, .lock 1, .endSelect 1,
    .publish 0, .settle 0 .confirmed, .publish 1, .publish 0, .settle 0 .refused, .afterPublish 0,
    .mark 0, .mark 0, .markFailed 0, .commit 0, .lock 2, .lock 2, .settle 1 .confirmed, .endLoop 1,
    .afterPublish 1, .mark 1, .mark 1, .commit 1, .lock 2, .endSelect 2, .publish 2,
    .settle 2 .confirmed, .endLoop 2, .afterPublish 2, .mark 2, .mark 2, .commit 2]

theorem relay_sends_once_overlap : ∃ state, Reach step Smooth (State.init threeRows) state ∧
    (state.confirmed = [(0, 11), (1, 13), (2, 12)] ∧
      (state.outbox.count fun row => row.publishedAt.isSome) = 3) ∧ SentOnce threeRows state := by
  obtain ⟨state, hreach, hcheck⟩ : ∃ state, Reach step Smooth (State.init threeRows) state ∧
      decide (state.confirmed = [(0, 11), (1, 13), (2, 12)] ∧
        (state.outbox.count fun row => row.publishedAt.isSome) = 3) = true :=
    exists_reach_of_runWithin overlapTrace (by decide +kernel)
  exact ⟨state, hreach, of_decide_eq_true hcheck,
    relay_sends_once threeRows (quiet_ofRows _) hreach⟩

end Marketplace.Relay
