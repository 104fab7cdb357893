import Marketplace.Outbox.Relay

/-!
# What a pass holds

Every transition of a pass, and the invariant of its locks: the version it holds of a row is the
committed one, except for the marks it has written so far; and a pass with a lock clause holds its
whole batch, which nobody has published yet.
-/

namespace Marketplace.Relay

open ReadCommitted ReadCommitted.Table Transition

variable {before after state : State} {call : Call} {outbox : Table Call OutboxId OutboxRow}

/-- A step of `call` from one phase to the next, with the rows and the confirmations it leaves. -/
inductive Runs (before : State) : Action → Call → Phase → Phase → Table Call OutboxId OutboxRow →
    List (Call × OutboxId) → Prop
  | began (call : Call) (options : RelayOptions) (now : Nat) :
      Runs before (.relayOnce call options now) call .idle (.began ⟨options, now, [], [], none⟩)
        before.outbox before.confirmed
  | selectedUnlocked (call : Call) (pass : Pass) (rows : List Envelope)
      (hmode : pass.options.lockMode = .none) (hnodup : (rows.map Envelope.id).Nodup)
      (hrows : ∀ row ∈ rows, ∃ version, before.outbox.view call row.id = some version ∧
        row = envelope row.id version) :
      Runs before (.select call) call (.began pass) (.publishing { pass with rows := rows } rows)
        before.outbox before.confirmed
  | selected (call : Call) (pass : Pass) (candidates : List (OutboxId × OutboxRow))
      (hmode : pass.options.lockMode ≠ .none) (hnodup : (candidates.map Prod.fst).Nodup) :
      Runs before (.select call) call (.began pass) (.locking pass candidates) before.outbox
        before.confirmed
  | locked (call : Call) (pass : Pass) (id : OutboxId) (candidate row : OutboxRow)
      (candidates : List (OutboxId × OutboxRow)) (hlock : before.outbox.lockable call id = true)
      (hview : before.outbox.view call id = some row) (hwanted : pass.options.wanted row = true) :
      Runs before (.lock call) call (.locking pass ((id, candidate) :: candidates))
        (.locking { pass with rows := pass.rows ++ [envelope id row] } candidates)
        (before.outbox.put call id (some row)) before.confirmed
  | dropped (call : Call) (pass : Pass) (id : OutboxId) (candidate row : OutboxRow)
      (candidates : List (OutboxId × OutboxRow)) (hlock : before.outbox.lockable call id = true)
      (hview : before.outbox.view call id = some row) :
      Runs before (.lock call) call (.locking pass ((id, candidate) :: candidates))
        (.locking pass candidates) (before.outbox.put call id (some row)) before.confirmed
  | skipped (call : Call) (pass : Pass) (candidate : OutboxId × OutboxRow)
      (candidates : List (OutboxId × OutboxRow)) :
      Runs before (.lock call) call (.locking pass (candidate :: candidates))
        (.locking pass candidates) before.outbox before.confirmed
  | selectEnded (call : Call) (pass : Pass) (candidates : List (OutboxId × OutboxRow)) :
      Runs before (.endSelect call) call (.locking pass candidates) (.publishing pass pass.rows)
        before.outbox before.confirmed
  | published (call : Call) (pass : Pass) (row : Envelope) (rest : List Envelope) :
      Runs before (.publish call) call (.publishing pass (row :: rest)) (.awaiting pass row rest)
        before.outbox before.confirmed
  | confirmed (call : Call) (pass : Pass) (row : Envelope) (rest : List Envelope) :
      Runs before (.settle call .confirmed) call (.awaiting pass row rest)
        (.publishing { pass with sentIds := pass.sentIds ++ [row.id] } rest)
        before.outbox (before.confirmed ++ [(call, row.id)])
  | failed (call : Call) (pass : Pass) (row : Envelope) (rest : List Envelope) (outcome : Outcome)
      (houtcome : outcome ≠ .confirmed) :
      Runs before (.settle call outcome) call (.awaiting pass row rest)
        (.published { pass with failedId := some row.id }) before.outbox before.confirmed
  | loopEnded (call : Call) (pass : Pass) :
      Runs before (.endLoop call) call (.publishing pass []) (.published pass) before.outbox
        before.confirmed
  | hooked (call : Call) (pass : Pass) :
      Runs before (.afterPublish call) call (.published pass) (.marking pass pass.sentIds)
        before.outbox before.confirmed
  | marked (call : Call) (pass : Pass) (id : OutboxId) (rest : List OutboxId) (row : OutboxRow)
      (hlock : before.outbox.lockable call id = true)
      (hview : before.outbox.view call id = some row) :
      Runs before (.mark call) call (.marking pass (id :: rest)) (.marking pass rest)
        (before.outbox.put call id (some (markSent pass.now row))) before.confirmed
  | markedGone (call : Call) (pass : Pass) (id : OutboxId) (rest : List OutboxId)
      (hview : before.outbox.view call id = none) :
      Runs before (.mark call) call (.marking pass (id :: rest)) (.marking pass rest)
        before.outbox before.confirmed
  | markedAll (call : Call) (pass : Pass) (hfailed : pass.failedId = none) :
      Runs before (.mark call) call (.marking pass []) (.committing pass) before.outbox
        before.confirmed
  | markedSent (call : Call) (pass : Pass) (failedId : OutboxId)
      (hfailed : pass.failedId = some failedId) :
      Runs before (.mark call) call (.marking pass []) (.markingFailed pass failedId)
        before.outbox before.confirmed
  | counted (call : Call) (pass : Pass) (failedId : OutboxId) (row : OutboxRow)
      (hlock : before.outbox.lockable call failedId = true)
      (hview : before.outbox.view call failedId = some row) :
      Runs before (.markFailed call) call (.markingFailed pass failedId) (.committing pass)
        (before.outbox.put call failedId (some (countAttempt row))) before.confirmed
  | countedGone (call : Call) (pass : Pass) (failedId : OutboxId)
      (hview : before.outbox.view call failedId = none) :
      Runs before (.markFailed call) call (.markingFailed pass failedId) (.committing pass)
        before.outbox before.confirmed
  | committed (call : Call) (pass : Pass) :
      Runs before (.commit call) call (.committing pass) (.returned pass)
        (before.outbox.commit call) before.confirmed
  | aborted (call : Call) (phase : Phase) (hopen : phase.isOpen = true) :
      Runs before (.abort call) call phase .threw (before.outbox.rollback call) before.confirmed
  | crashed (call : Call) (phase : Phase) (hopen : phase.isOpen = true) :
      Runs before (.crash call) call phase .crashed (before.outbox.rollback call) before.confirmed
  | enqueued (call : Call) (id : OutboxId) (data : OrderPlacedData) (occurredAt now : Nat)
      (houtcome : before.outbox.insertOutcome call id = .inserted)
      (hnone : before.outbox.committed id = none) :
      Runs before (.enqueue call id data occurredAt now) call .idle .idle
        ((before.outbox.put call id (some (enqueueOrderPlaced data occurredAt now))).commit call)
        before.confirmed

/-- The ids that a SELECT finds are distinct. -/
theorem nodup_candidates (outbox : Table Call OutboxId OutboxRow) (call : Call)
    (cond : OutboxId → OutboxRow → Bool) :
    ((((outbox.scan call cond).filterMap fun id =>
      (outbox.view call id).map fun row => (id, row)).insertionSort rowLe).map Prod.fst).Nodup := by
  rw [((List.perm_insertionSort rowLe _).map Prod.fst).nodup_iff]
  have hsublist : (((outbox.scan call cond).filterMap fun id =>
      (outbox.view call id).map fun row => (id, row)).map Prod.fst).Sublist
        (outbox.scan call cond) := by
    induction outbox.scan call cond with
    | nil => exact List.Sublist.slnil
    | cons id rest ih =>
        cases hview : outbox.view call id with
        | none =>
            rw [List.filterMap_cons_none (by rw [hview]; rfl)]
            exact ih.cons id
        | some row =>
            rw [List.filterMap_cons_some (by rw [hview]; rfl), List.map_cons]
            exact ih.cons_cons id
  exact hsublist.nodup (outbox.nodup.filter _)

theorem view_of_candidate {cond : OutboxId → OutboxRow → Bool} {candidate : OutboxId × OutboxRow}
    (hmem : candidate ∈ ((outbox.scan call cond).filterMap fun id =>
      (outbox.view call id).map fun row => (id, row)).insertionSort rowLe) :
    outbox.view call candidate.1 = some candidate.2 := by
  rw [(List.perm_insertionSort rowLe _).mem_iff, List.mem_filterMap] at hmem
  obtain ⟨id, -, hmap⟩ := hmem
  obtain ⟨row, hview, rfl⟩ := Option.map_eq_some_iff.mp hmap
  exact hview

theorem step_runs {action : Action} (hstep : step before action = some after) :
    ∃ call phase next outbox confirmed, before.passes call = phase ∧
      after = ⟨outbox, Function.update before.passes call next, confirmed⟩ ∧
      Runs before action call phase next outbox confirmed := by
  cases action with
  | relayOnce call options now =>
      simp only [step, relayOnce] at hstep
      split at hstep <;> cases hstep
      rename_i hphase
      exact ⟨call, _, _, _, _, hphase, rfl, .began call options now⟩
  | select call =>
      simp only [step, select] at hstep
      split at hstep
      case h_2 => cases hstep
      rename_i pass hphase
      have hnodup := nodup_candidates before.outbox call fun _ row => pass.options.wanted row
      split at hstep <;> cases hstep
      · rename_i hmode
        refine ⟨call, _, _, _, _, hphase, rfl, .selectedUnlocked call pass _ hmode ?_ ?_⟩
        · rw [List.map_map, List.map_take]
          exact hnodup.sublist (List.take_sublist _ _)
        · intro row hrow
          obtain ⟨candidate, hcandidate, rfl⟩ := List.mem_map.mp hrow
          exact ⟨candidate.2, view_of_candidate (List.mem_of_mem_take hcandidate), rfl⟩
      · rename_i hmode
        exact ⟨call, _, _, _, _, hphase, rfl, .selected call pass _ hmode hnodup⟩
  | lock call =>
      simp only [step, lock] at hstep
      split at hstep
      case h_2 => cases hstep
      rename_i pass id candidate candidates hphase
      split at hstep
      case isFalse => cases hstep
      split at hstep
      · rename_i outbox hvisit
        obtain ⟨hlock, hcases⟩ := visit_eq_some hvisit
        obtain ⟨row, hview, hwanted, -, rfl⟩ | ⟨_, _, _, hhit, _⟩ | ⟨_, hhit, _⟩ := hcases
        · have hheld : ((before.outbox.put call id (some row)).cell id).held =
              some (call, some row) := by rw [cell_put_self]
          rw [view_of_held hheld] at hstep
          cases hstep
          exact ⟨call, _, _, _, _, hphase, rfl,
            .locked call pass id candidate row candidates hlock hview hwanted⟩
        · cases hhit
        · cases hhit
      · rename_i outbox hvisit
        cases hstep
        obtain ⟨hlock, hcases⟩ := visit_eq_some hvisit
        obtain ⟨_, _, _, hhit, _⟩ | ⟨row, hview, _, -, rfl⟩ | ⟨_, -, rfl⟩ := hcases
        · cases hhit
        · exact ⟨call, _, _, _, _, hphase, rfl,
            .dropped call pass id candidate row candidates hlock hview⟩
        · exact ⟨call, _, _, _, _, hphase, rfl, .skipped call pass (id, candidate) candidates⟩
      · split at hstep <;> cases hstep
        exact ⟨call, _, _, _, _, hphase, rfl, .skipped call pass (id, candidate) candidates⟩
  | endSelect call =>
      simp only [step, endSelect] at hstep
      split at hstep
      case h_2 => cases hstep
      rename_i pass candidates hphase
      split at hstep <;> cases hstep
      exact ⟨call, _, _, _, _, hphase, rfl, .selectEnded call pass candidates⟩
  | publish call =>
      simp only [step, publish] at hstep
      split at hstep <;> cases hstep
      rename_i pass row rest hphase
      exact ⟨call, _, _, _, _, hphase, rfl, .published call pass row rest⟩
  | settle call outcome =>
      simp only [step, settle] at hstep
      split at hstep
      case h_2 => cases hstep
      rename_i pass row rest hphase
      cases outcome with
      | confirmed =>
          cases hstep
          exact ⟨call, _, _, _, _, hphase, rfl, .confirmed call pass row rest⟩
      | refused =>
          cases hstep
          exact ⟨call, _, _, _, _, hphase, rfl, .failed call pass row rest _ (by simp)⟩
      | timedOut =>
          cases hstep
          exact ⟨call, _, _, _, _, hphase, rfl, .failed call pass row rest _ (by simp)⟩
  | endLoop call =>
      simp only [step, endLoop] at hstep
      split at hstep <;> cases hstep
      rename_i pass hphase
      exact ⟨call, _, _, _, _, hphase, rfl, .loopEnded call pass⟩
  | afterPublish call =>
      simp only [step, afterPublish] at hstep
      split at hstep <;> cases hstep
      rename_i pass hphase
      exact ⟨call, _, _, _, _, hphase, rfl, .hooked call pass⟩
  | mark call =>
      simp only [step, mark] at hstep
      split at hstep
      · rename_i pass id rest hphase
        split at hstep <;> cases hstep
        rename_i outbox hit hvisit
        obtain ⟨hlock, hcases⟩ := visit_eq_some hvisit
        obtain ⟨row, hview, _, -, rfl⟩ | ⟨_, _, hcond, _⟩ | ⟨hview, -, rfl⟩ := hcases
        · exact ⟨call, _, _, _, _, hphase, rfl, .marked call pass id rest row hlock hview⟩
        · cases hcond
        · exact ⟨call, _, _, _, _, hphase, rfl, .markedGone call pass id rest hview⟩
      · rename_i pass hphase
        split at hstep <;> cases hstep
        · rename_i failedId hfailed
          exact ⟨call, _, _, _, _, hphase, rfl, .markedSent call pass failedId hfailed⟩
        · rename_i hfailed
          exact ⟨call, _, _, _, _, hphase, rfl, .markedAll call pass hfailed⟩
      · cases hstep
  | markFailed call =>
      simp only [step, markFailed] at hstep
      split at hstep
      case h_2 => cases hstep
      rename_i pass failedId hphase
      split at hstep <;> cases hstep
      rename_i outbox hit hvisit
      obtain ⟨hlock, hcases⟩ := visit_eq_some hvisit
      obtain ⟨row, hview, _, -, rfl⟩ | ⟨_, _, hcond, _⟩ | ⟨hview, -, rfl⟩ := hcases
      · exact ⟨call, _, _, _, _, hphase, rfl, .counted call pass failedId row hlock hview⟩
      · cases hcond
      · exact ⟨call, _, _, _, _, hphase, rfl, .countedGone call pass failedId hview⟩
  | commit call =>
      simp only [step, commit] at hstep
      split at hstep <;> cases hstep
      rename_i pass hphase
      exact ⟨call, _, _, _, _, hphase, rfl, .committed call pass⟩
  | abort call =>
      simp only [step, rollback] at hstep
      split at hstep <;> cases hstep
      rename_i hopen
      exact ⟨call, _, _, _, _, rfl, rfl, .aborted call _ hopen⟩
  | crash call =>
      simp only [step, rollback] at hstep
      split at hstep <;> cases hstep
      rename_i hopen
      exact ⟨call, _, _, _, _, rfl, rfl, .crashed call _ hopen⟩
  | enqueue call id data occurredAt now =>
      simp only [step, enqueue] at hstep
      split at hstep <;> cases hstep
      rename_i hguard
      obtain ⟨hphase, hnone, houtcome⟩ := hguard
      refine ⟨call, _, _, _, _, hphase, ?_, .enqueued call id data occurredAt now houtcome hnone⟩
      rw [← hphase, Function.update_eq_self]

/-! ### The lists of a pass -/

/-- The sent rows are the first ones of the batch, and a failed row is one that was not sent. -/
structure Done (pass : Pass) : Prop where
  nodup : (pass.rows.map Envelope.id).Nodup
  split : ∃ sent unsent, pass.rows = sent ++ unsent ∧ sent.map Envelope.id = pass.sentIds ∧
    ∀ failedId, pass.failedId = some failedId → failedId ∈ unsent.map Envelope.id

def WellFormed : Phase → Prop
  | .began pass => pass.rows = [] ∧ pass.sentIds = [] ∧ pass.failedId = none
  | .locking pass candidates =>
      (pass.rows.map Envelope.id ++ candidates.map Prod.fst).Nodup ∧ pass.sentIds = [] ∧
        pass.failedId = none
  | .publishing pass rest =>
      (pass.rows.map Envelope.id).Nodup ∧ pass.failedId = none ∧
        ∃ sent, pass.rows = sent ++ rest ∧ sent.map Envelope.id = pass.sentIds
  | .awaiting pass row rest =>
      (pass.rows.map Envelope.id).Nodup ∧ pass.failedId = none ∧
        ∃ sent, pass.rows = sent ++ row :: rest ∧ sent.map Envelope.id = pass.sentIds
  | .published pass | .committing pass | .returned pass => Done pass
  | .marking pass rest => Done pass ∧ ∃ visited, pass.sentIds = visited ++ rest
  | .markingFailed pass failedId => Done pass ∧ pass.failedId = some failedId
  | .idle | .threw | .crashed => True

theorem Done.nodup_sentIds {pass : Pass} (hdone : Done pass) : pass.sentIds.Nodup := by
  obtain ⟨sent, unsent, hrows, hsent, -⟩ := hdone.split
  have hnodup := hdone.nodup
  rw [hrows, List.map_append, hsent] at hnodup
  exact (List.nodup_append.mp hnodup).1

theorem Done.failedId_not_sent {pass : Pass} {failedId : OutboxId} (hdone : Done pass)
    (hfailed : pass.failedId = some failedId) : failedId ∉ pass.sentIds := by
  obtain ⟨sent, unsent, hrows, hsent, hunsent⟩ := hdone.split
  have hnodup := hdone.nodup
  rw [hrows, List.map_append, hsent] at hnodup
  intro hmem
  exact (List.nodup_append.mp hnodup).2.2 failedId hmem failedId (hunsent failedId hfailed) rfl

theorem WellFormed.step {action : Action} {phase next : Phase} {confirmed : List (Call × OutboxId)}
    (hwf : WellFormed phase) (hruns : Runs before action call phase next outbox confirmed) :
    WellFormed next := by
  cases hruns with
  | began call options now => exact ⟨rfl, rfl, rfl⟩
  | selectedUnlocked call pass rows hmode hnodup hrows =>
      exact ⟨hnodup, hwf.2.2, [], rfl, hwf.2.1.symm⟩
  | selected call pass candidates hmode hnodup =>
      refine ⟨?_, hwf.2⟩
      rw [hwf.1]
      exact hnodup
  | locked call pass id candidate row candidates hlock hview hwanted =>
      refine ⟨?_, hwf.2⟩
      rw [List.map_append, List.append_assoc]
      exact hwf.1
  | dropped call pass id candidate row candidates hlock hview =>
      exact ⟨hwf.1.sublist ((List.sublist_cons_self _ _).append_left _), hwf.2⟩
  | skipped call pass candidate candidates =>
      exact ⟨hwf.1.sublist ((List.sublist_cons_self _ _).append_left _), hwf.2⟩
  | selectEnded call pass candidates =>
      exact ⟨(List.nodup_append.mp hwf.1).1, hwf.2.2, [], rfl, hwf.2.1.symm⟩
  | published call pass row rest => exact hwf
  | confirmed call pass row rest =>
      obtain ⟨hnodup, hfailed, sent, hrows, hsent⟩ := hwf
      exact ⟨hnodup, hfailed, sent ++ [row], by rw [hrows, List.append_assoc]; rfl,
        by rw [List.map_append, hsent]; rfl⟩
  | failed call pass row rest outcome houtcome =>
      obtain ⟨hnodup, -, sent, hrows, hsent⟩ := hwf
      refine ⟨hnodup, sent, row :: rest, hrows, hsent, ?_⟩
      intro failedId hfailed
      cases hfailed
      exact List.mem_cons_self
  | loopEnded call pass =>
      obtain ⟨hnodup, hfailed, sent, hrows, hsent⟩ := hwf
      refine ⟨hnodup, sent, [], hrows, hsent, ?_⟩
      intro failedId hsome
      rw [hfailed] at hsome
      cases hsome
  | hooked call pass => exact ⟨hwf, [], rfl⟩
  | marked call pass id rest row hlock hview =>
      obtain ⟨hdone, visited, hvisited⟩ := hwf
      exact ⟨hdone, visited ++ [id], by rw [hvisited, List.append_assoc]; rfl⟩
  | markedGone call pass id rest hview =>
      obtain ⟨hdone, visited, hvisited⟩ := hwf
      exact ⟨hdone, visited ++ [id], by rw [hvisited, List.append_assoc]; rfl⟩
  | markedAll call pass hfailed => exact hwf.1
  | markedSent call pass failedId hfailed => exact ⟨hwf.1, hfailed⟩
  | counted call pass failedId row hlock hview => exact hwf.1
  | countedGone call pass failedId hview => exact hwf.1
  | committed call pass => exact hwf
  | aborted call phase hopen => trivial
  | crashed call phase hopen => trivial
  | enqueued call id data occurredAt now houtcome hnone => trivial

/-! ### The versions a pass holds -/

/-- What a pass has made of a row so far. -/
def written : Phase → OutboxId → OutboxRow → OutboxRow
  | .marking pass rest, id, row =>
      if id ∈ pass.sentIds ∧ id ∉ rest then markSent pass.now row else row
  | .markingFailed pass _, id, row =>
      if id ∈ pass.sentIds then markSent pass.now row else row
  | .committing pass, id, row =>
      if id ∈ pass.sentIds then markSent pass.now row
      else if pass.failedId = some id then countAttempt row else row
  | _, _, row => row

/-- The rows an open pass holds. -/
structure Owns (outbox : Table Call OutboxId OutboxRow) (call : Call) (phase : Phase) : Prop where
  held : phase.isOpen = true → ∀ id version, (outbox.cell id).held = some (call, version) →
    ∃ row, outbox.committed id = some row ∧ version = some (written phase id row)
  batch : phase.isOpen = true → ∀ pass, phase.pass = some pass → pass.options.lockMode ≠ .none →
    ∀ row ∈ pass.rows, ∃ current,
      outbox.cell row.id = ⟨some current, some (call, some (written phase row.id current))⟩ ∧
        current.publishedAt = none

theorem Owns.other {mover : Call} {next : Table Call OutboxId OutboxRow} {phase : Phase}
    (howns : Owns outbox call phase) (hframe : Frame mover outbox next) (hne : call ≠ mover) :
    Owns next call phase where
  held hopen id version hheld := by
    have hold := hframe.given id call version hne hheld
    obtain ⟨row, hrow, hversion⟩ := howns.held hopen id version hold
    refine ⟨row, ?_, hversion⟩
    rw [Table.committed, hframe.kept id call version hne hold]
    exact hrow
  batch hopen pass hpass hmode row hrow := by
    obtain ⟨current, hcell, hnone⟩ := howns.batch hopen pass hpass hmode row hrow
    refine ⟨current, ?_, hnone⟩
    rw [← hcell]
    exact hframe.kept row.id call _ hne (by rw [hcell])

/-- What the caller sees of a row that it has not rewritten is what is committed. -/
theorem Owns.view_eq {phase : Phase} {id : OutboxId} {row : OutboxRow}
    (howns : Owns outbox call phase) (hopen : phase.isOpen = true)
    (hwritten : ∀ row, written phase id row = row) (hview : outbox.view call id = some row) :
    outbox.committed id = some row := by
  by_cases hheld : ∃ version, (outbox.cell id).held = some (call, version)
  · obtain ⟨version, hversion⟩ := hheld
    obtain ⟨current, hcurrent, rfl⟩ := howns.held hopen id version hversion
    rw [view_of_held hversion, hwritten] at hview
    rw [hcurrent, hview]
  · push Not at hheld
    rwa [view_of_not_held hheld] at hview

/-- A step of the caller that touches no row. -/
theorem Owns.goto {phase next : Phase} (howns : Owns outbox call phase)
    (hopen : phase.isOpen = true)
    (hwritten : ∀ id row version, (outbox.cell id).held = some (call, some version) →
      written next id row = written phase id row)
    (hbatch : ∀ pass, next.pass = some pass → pass.options.lockMode ≠ .none →
      ∃ pass', phase.pass = some pass' ∧ pass'.options = pass.options ∧ pass'.rows = pass.rows) :
    Owns outbox call next where
  held _ id version hheld := by
    obtain ⟨row, hrow, rfl⟩ := howns.held hopen id version hheld
    exact ⟨row, hrow, by rw [hwritten id row _ hheld]⟩
  batch _ pass hpass hmode row hrow := by
    obtain ⟨pass', hpass', hoptions, hrows⟩ := hbatch pass hpass hmode
    obtain ⟨current, hcell, hnone⟩ := howns.batch hopen pass' hpass' (by rwa [hoptions]) row
      (by rwa [hrows])
    exact ⟨current, by rw [hwritten row.id current _ (congrArg Cell.held hcell), hcell], hnone⟩

/-- A step of the caller that rewrites one row that it has not rewritten before. -/
theorem Owns.put {phase next : Phase} {id : OutboxId} {current version : OutboxRow}
    (howns : Owns outbox call phase) (hopen : phase.isOpen = true)
    (hcurrent : outbox.committed id = some current) (hversion : version = written next id current)
    (hother : ∀ other row, other ≠ id → written next other row = written phase other row)
    (hbatch : ∀ pass, next.pass = some pass → pass.options.lockMode ≠ .none →
      ∃ pass', phase.pass = some pass' ∧ pass'.options = pass.options ∧
        ∀ row ∈ pass.rows, row ∈ pass'.rows ∨ row.id = id ∧ current.publishedAt = none) :
    Owns (outbox.put call id (some version)) call next where
  held _ other version hheld := by
    rw [hversion] at hheld
    rcases held_put_iff.mp hheld with ⟨rfl, -, rfl⟩ | ⟨hne, hold⟩
    · exact ⟨current, by rwa [committed_put], rfl⟩
    · obtain ⟨row, hrow, hversion⟩ := howns.held hopen other version hold
      exact ⟨row, by rwa [committed_put], by rw [hother other row hne, hversion]⟩
  batch _ pass hpass hmode row hrow := by
    obtain ⟨pass', hpass', hoptions, hrows⟩ := hbatch pass hpass hmode
    by_cases heq : row.id = id
    · refine ⟨current, ?_, ?_⟩
      · rw [heq, cell_put_self, hcurrent, hversion]
      · rcases hrows row hrow with hold | ⟨-, hnone⟩
        · obtain ⟨current', hcell, hnone⟩ := howns.batch hopen pass' hpass' (by rwa [hoptions]) row
            hold
          rw [heq] at hcell
          rw [Table.committed, hcell] at hcurrent
          rwa [← Option.some.inj hcurrent]
        · exact hnone
    · rcases hrows row hrow with hold | ⟨hid, -⟩
      · obtain ⟨current', hcell, hnone⟩ :=
          howns.batch hopen pass' hpass' (by rwa [hoptions]) row hold
        exact ⟨current', by rw [cell_put_of_ne heq, hother row.id current' heq, hcell], hnone⟩
      · exact absurd hid heq

/-- A step of the caller that touches neither a row nor its batch. -/
theorem Owns.keep {phase next : Phase} (howns : Owns outbox call phase)
    (hopen : phase.isOpen = true) (hpass : next.pass = phase.pass)
    (hwritten : ∀ id row version, (outbox.cell id).held = some (call, some version) →
      written next id row = written phase id row) : Owns outbox call next := by
  apply howns.goto hopen hwritten
  intro pass hnext _
  exact ⟨pass, hpass ▸ hnext, rfl, rfl⟩

/-- A step of the caller that rewrites a row of its batch. -/
theorem Owns.rewrite {phase next : Phase} {id : OutboxId} {current version : OutboxRow}
    (howns : Owns outbox call phase) (hopen : phase.isOpen = true) (hpass : next.pass = phase.pass)
    (hcurrent : outbox.committed id = some current) (hversion : version = written next id current)
    (hother : ∀ other row, other ≠ id → written next other row = written phase other row) :
    Owns (outbox.put call id (some version)) call next := by
  apply howns.put hopen hcurrent hversion hother
  intro pass hnext _
  exact ⟨pass, hpass ▸ hnext, rfl, fun _ => .inl⟩

/-- A pass that is not open owns nothing that matters. -/
theorem owns_of_closed {phase : Phase} (hclosed : phase.isOpen = false) :
    Owns outbox call phase where
  held hopen := by
    rw [hclosed] at hopen
    cases hopen
  batch hopen := by
    rw [hclosed] at hopen
    cases hopen

theorem Owns.step {action : Action} {phase next : Phase} {confirmed : List (Call × OutboxId)}
    (hwf : WellFormed phase) (howns : Owns before.outbox call phase)
    (hfree : phase = .idle → ∀ id version, (before.outbox.cell id).held ≠ some (call, version))
    (hruns : Runs before action call phase next outbox confirmed) : Owns outbox call next := by
  have hgone : ∀ {id version}, before.outbox.view call id = none →
      (before.outbox.cell id).held ≠ some (call, some version) := by
    intro id version hview hheld
    rw [view_of_held hheld] at hview
    cases hview
  cases hruns with
  | began call options now =>
      refine ⟨fun _ id version hheld => absurd hheld (hfree rfl id version), ?_⟩
      intro _ pass hpass _ row hrow
      cases hpass
      exact absurd hrow List.not_mem_nil
  | selectedUnlocked call pass rows hmode hnodup hrows =>
      refine howns.goto rfl (fun _ _ _ _ => rfl) ?_
      intro pass' hpass' hmode'
      cases hpass'
      exact absurd hmode hmode'
  | selected call pass candidates hmode hnodup => exact howns.keep rfl rfl fun _ _ _ _ => rfl
  | locked call pass id candidate row candidates hlock hview hwanted =>
      have hcurrent := howns.view_eq rfl (fun _ => rfl) hview
      refine howns.put rfl hcurrent rfl (fun _ _ _ => rfl) ?_
      intro pass' hpass' _
      cases hpass'
      refine ⟨pass, rfl, rfl, fun other hother => ?_⟩
      rcases List.mem_append.mp hother with hold | hnew
      · exact .inl hold
      · rw [List.mem_singleton.mp hnew]
        simp only [RelayOptions.wanted, Bool.and_eq_true, Option.isNone_iff_eq_none] at hwanted
        exact .inr ⟨rfl, hwanted.1⟩
  | dropped call pass id candidate row candidates hlock hview =>
      have hcurrent := howns.view_eq rfl (fun _ => rfl) hview
      exact howns.rewrite rfl rfl hcurrent rfl fun _ _ _ => rfl
  | confirmed call pass row rest =>
      refine howns.goto rfl (fun _ _ _ _ => rfl) ?_
      intro pass' hpass' _
      cases hpass'
      exact ⟨pass, rfl, rfl, rfl⟩
  | failed call pass row rest outcome houtcome =>
      refine howns.goto rfl (fun _ _ _ _ => rfl) ?_
      intro pass' hpass' _
      cases hpass'
      exact ⟨pass, rfl, rfl, rfl⟩
  | hooked call pass =>
      refine howns.keep rfl rfl ?_
      intro id row version _
      exact if_neg fun hin => hin.2 hin.1
  | marked call pass id rest row hlock hview =>
      obtain ⟨hdone, visited, hvisited⟩ := hwf
      have hnodup := hdone.nodup_sentIds
      rw [hvisited] at hnodup
      have hsent : id ∈ pass.sentIds ∧ id ∉ rest := by
        rw [hvisited]
        exact ⟨List.mem_append_right _ List.mem_cons_self,
          (List.nodup_cons.mp (List.nodup_append.mp hnodup).2.1).1⟩
      have hcurrent := howns.view_eq rfl
        (fun _ => if_neg fun hin => hin.2 List.mem_cons_self) hview
      refine howns.rewrite rfl rfl hcurrent (if_pos hsent).symm ?_
      intro other row hne
      simp [written, hne]
  | markedGone call pass id rest hview =>
      refine howns.keep rfl rfl ?_
      intro other row version hheld
      have hne : other ≠ id := by
        rintro rfl
        exact hgone hview hheld
      simp [written, hne]
  | markedAll call pass hfailed =>
      refine howns.keep rfl rfl ?_
      intro id row version _
      simp [written, hfailed]
  | markedSent call pass failedId hfailed =>
      refine howns.keep rfl rfl ?_
      intro id row version _
      simp [written]
  | counted call pass failedId row hlock hview =>
      obtain ⟨hdone, hfailed⟩ := hwf
      have hnot := hdone.failedId_not_sent hfailed
      have hcurrent := howns.view_eq rfl (fun _ => if_neg hnot) hview
      have hcount : countAttempt row = written (.committing pass) failedId row := by
        simp [written, hnot, hfailed]
      refine howns.rewrite rfl rfl hcurrent hcount ?_
      intro other row hne
      simp [written, hfailed, hne.symm]
  | countedGone call pass failedId hview =>
      refine howns.keep rfl rfl ?_
      intro other row version hheld
      have hne : other ≠ failedId := by
        rintro rfl
        exact hgone hview hheld
      simp [written, hwf.2, hne.symm]
  | committed call pass => exact owns_of_closed rfl
  | aborted call phase hopen => exact owns_of_closed rfl
  | crashed call phase hopen => exact owns_of_closed rfl
  | enqueued call id data occurredAt now houtcome hnone => exact owns_of_closed rfl
  | _ => exact howns.keep rfl rfl fun _ _ _ _ => rfl

theorem Runs.frame {action : Action} {phase next : Phase} {confirmed : List (Call × OutboxId)}
    (hruns : Runs before action call phase next outbox confirmed) :
    Frame call before.outbox outbox := by
  cases hruns with
  | locked call pass id candidate row candidates hlock hview hwanted => exact frame_put hlock
  | dropped call pass id candidate row candidates hlock hview => exact frame_put hlock
  | marked call pass id rest row hlock hview => exact frame_put hlock
  | counted call pass failedId row hlock hview => exact frame_put hlock
  | committed call pass => exact frame_commit
  | aborted call phase hopen => exact frame_rollback
  | crashed call phase hopen => exact frame_rollback
  | enqueued call id data occurredAt now houtcome hnone =>
      exact (frame_put (lockable_of_inserted houtcome)).trans frame_commit
  | _ => exact frame_refl

end Marketplace.Relay
