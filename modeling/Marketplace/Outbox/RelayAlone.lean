import Marketplace.Outbox.RelayLocks

/-!
# One pass with no other pass running

What a pass has selected, sent and written, phase by phase, when nobody else works on the table: its
batch is the head of the rows that are not published, and what it returns says what has become of
them.
-/

namespace Marketplace.Relay

open ReadCommitted ReadCommitted.Table Transition

instance : Std.Total rowLe where
  total left right := by
    unfold rowLe OutboxId
    omega

instance : IsTrans (OutboxId × OutboxRow) rowLe where
  trans left middle right hleft hright := by
    unfold rowLe OutboxId at *
    omega

/-- The rows that the SELECT of a pass looks for, in its order. -/
def unpublished (options : RelayOptions) (outbox : Table Call OutboxId OutboxRow) :
    List (OutboxId × OutboxRow) :=
  ((outbox.matching options.wanted).filterMap fun id =>
    (outbox.committed id).map fun row => (id, row)).insertionSort rowLe

def batch (options : RelayOptions) (outbox : Table Call OutboxId OutboxRow) :
    List (OutboxId × OutboxRow) :=
  (unpublished options outbox).take options.batchSize

/-- The steps of one pass; `sink` relates a row to the ways in which its publish may end. -/
def Sole (sink : OutboxId → Outcome → Prop) (call : Call) (state : State) : Action → Prop
  | .enqueue _ _ _ _ _ => False
  | .settle caller outcome => caller = call ∧ ∀ pass row rest,
      state.passes call = .awaiting pass row rest → sink row.id outcome
  | action => action.caller = call

/-- Any behaviour of the sink. -/
abbrev Undisturbed : Call → State → Action → Prop := Sole fun _ _ => True

instance (call : Call) (state : State) (action : Action) :
    Decidable (Undisturbed call state action) :=
  match action with
  | .enqueue _ _ _ _ _ => inferInstanceAs (Decidable False)
  | .settle caller _ => decidable_of_iff (caller = call) (by simp [Undisturbed, Sole])
  | .relayOnce caller _ _ | .select caller | .lock caller | .endSelect caller | .publish caller
  | .endLoop caller | .afterPublish caller | .mark caller | .markFailed caller | .commit caller
  | .abort caller | .crash caller => inferInstanceAs (Decidable (caller = call))

variable {start before after state : State} {call : Call} {outbox : Table Call OutboxId OutboxRow}
  {options : RelayOptions} {sink : OutboxId → Outcome → Prop} {entry : OutboxId × OutboxRow}

/-! ### The selection -/

theorem mem_unpublished : entry ∈ unpublished options outbox ↔
    outbox.committed entry.1 = some entry.2 ∧ options.wanted entry.2 = true := by
  obtain ⟨id, row⟩ := entry
  rw [unpublished, (List.perm_insertionSort rowLe _).mem_iff, List.mem_filterMap]
  constructor
  · rintro ⟨other, hmatching, hrow⟩
    obtain ⟨row', hrow', heq⟩ := Option.map_eq_some_iff.mp hrow
    cases heq
    obtain ⟨row'', hrow'', hwanted⟩ := mem_matching.mp hmatching
    cases hrow'.symm.trans hrow''
    exact ⟨hrow', hwanted⟩
  · rintro ⟨hrow, hwanted⟩
    exact ⟨id, mem_matching.mpr ⟨row, hrow, hwanted⟩, by
      simp [show outbox.committed id = some row from hrow]⟩

theorem pairwise_unpublished (options : RelayOptions) (outbox : Table Call OutboxId OutboxRow) :
    (unpublished options outbox).Pairwise rowLe :=
  List.pairwise_insertionSort rowLe _

/-- A key has one row. -/
theorem nodup_ids {rows : List (OutboxId × OutboxRow)} (hnodup : rows.Nodup)
    (hrows : ∀ entry ∈ rows, outbox.committed entry.1 = some entry.2) :
    (rows.map Prod.fst).Nodup := by
  rw [List.nodup_map_iff_inj_on hnodup]
  intro left hleft right hright heq
  have hrow :=
    (hrows left hleft).symm.trans ((congrArg outbox.committed heq).trans (hrows right hright))
  exact Prod.ext heq (Option.some.inj hrow)

theorem nodup_unpublished (options : RelayOptions) (outbox : Table Call OutboxId OutboxRow) :
    (unpublished options outbox).Nodup := by
  rw [unpublished, (List.perm_insertionSort rowLe _).nodup_iff]
  apply (nodup_matching outbox _).filterMap
  intro left right entry hleft hright
  obtain ⟨_, -, rfl⟩ := Option.map_eq_some_iff.mp hleft
  obtain ⟨_, -, heq⟩ := Option.map_eq_some_iff.mp hright
  exact (congrArg Prod.fst heq).symm

/-- The order leaves no choice. -/
theorem eq_unpublished {rows : List (OutboxId × OutboxRow)} (hsorted : rows.Pairwise rowLe)
    (hnodup : rows.Nodup) (hmem : ∀ entry, entry ∈ rows ↔
      outbox.committed entry.1 = some entry.2 ∧ options.wanted entry.2 = true) :
    rows = unpublished options outbox := by
  have hperm : rows.Perm (unpublished options outbox) :=
    (List.perm_ext_iff_of_nodup hnodup (nodup_unpublished options outbox)).mpr fun entry =>
      (hmem entry).trans mem_unpublished.symm
  apply hperm.eq_of_pairwise _ hsorted (pairwise_unpublished options outbox)
  intro left right hleft hright hle hge
  have hid : left.1 = right.1 := by
    unfold rowLe at hle hge
    unfold OutboxId at hle hge ⊢
    omega
  have hrow := ((hmem left).mp hleft).1
  rw [hid, (mem_unpublished.mp hright).1] at hrow
  exact Prod.ext hid (Option.some.inj hrow.symm)

/-! ### The variables of a pass -/

/-- The rows of a pass, and how far its loop has come. -/
structure Sent (start : State) (sink : OutboxId → Outcome → Prop) (call : Call)
    (confirmed : List (Call × OutboxId)) (pass : Pass) (sent rest : List (OutboxId × OutboxRow)) :
    Prop where
  split : batch pass.options start.outbox = sent ++ rest
  rows : pass.rows = (sent ++ rest).map fun entry => envelope entry.1 entry.2
  sentIds : pass.sentIds = sent.map Prod.fst
  confirmed : confirmed = start.confirmed ++ sent.map fun entry => (call, entry.1)
  sink : ∀ entry ∈ sent, sink entry.1 .confirmed

/-- The loop is over: everything is sent, or the next row has failed. -/
structure Finished (start : State) (sink : OutboxId → Outcome → Prop) (call : Call)
    (confirmed : List (Call × OutboxId)) (pass : Pass) : Prop where
  sent : ∃ sent rest, Sent start sink call confirmed pass sent rest ∧
    pass.failedId = rest.head?.map Prod.fst ∧
      ∀ entry ∈ rest.head?, ∃ outcome, outcome ≠ .confirmed ∧ sink entry.1 outcome

/-- What each phase has made of the selection. -/
def Follows (start : State) (sink : OutboxId → Outcome → Prop) (call : Call)
    (confirmed : List (Call × OutboxId)) : Phase → Prop
  | .threw | .crashed => True
  | .idle => confirmed = start.confirmed
  | .began pass => pass.rows = [] ∧ pass.sentIds = [] ∧ pass.failedId = none ∧
      confirmed = start.confirmed
  | .locking pass candidates => pass.sentIds = [] ∧ pass.failedId = none ∧
      confirmed = start.confirmed ∧ ∃ done, unpublished pass.options start.outbox = done ++
        candidates ∧
        pass.rows = (done.map fun entry => envelope entry.1 entry.2) ∧
          done.length ≤ pass.options.batchSize
  | .publishing pass rest => pass.failedId = none ∧ ∃ sent unsent,
      Sent start sink call confirmed pass sent unsent ∧
        rest = unsent.map fun entry => envelope entry.1 entry.2
  | .awaiting pass row rest => pass.failedId = none ∧ ∃ sent entry unsent,
      Sent start sink call confirmed pass sent (entry :: unsent) ∧ row = envelope entry.1 entry.2 ∧
        rest = unsent.map fun entry => envelope entry.1 entry.2
  | .published pass | .marking pass _ | .committing pass | .returned pass =>
      Finished start sink call confirmed pass
  | .markingFailed pass failedId => Finished start sink call confirmed pass ∧
      pass.failedId = some failedId

/-- The table in each phase: an open pass sees what it has written, and it alone does. -/
def Shows (start : State) (outbox : Table Call OutboxId OutboxRow) (call : Call)
    (phase : Phase) : Prop :=
  if phase.isOpen then
    ∀ id, outbox.committed id = start.outbox.committed id ∧
      outbox.view call id = (start.outbox.committed id).map (written phase id)
  else outbox.Quiet ∧ ∀ id, outbox.committed id =
    match phase with
    | .returned pass => (start.outbox.committed id).map (written (.committing pass) id)
    | _ => start.outbox.committed id

structure Alone (start : State) (sink : OutboxId → Outcome → Prop) (call : Call) (state : State) :
    Prop where
  wellFormed : WellFormed (state.passes call)
  only : ∀ id owner version, (state.outbox.cell id).held = some (owner, version) → owner = call
  shows : Shows start state.outbox call (state.passes call)
  follows : Follows start sink call state.confirmed (state.passes call)
  others : ∀ other, other ≠ call → state.passes other = start.passes other

theorem alone_start (hquiet : start.outbox.Quiet) (hidle : start.passes call = .idle) :
    Alone start sink call start where
  wellFormed := by simp [hidle, WellFormed]
  only id owner version hheld := by simp [hquiet id] at hheld
  shows := by simpa [Shows, hidle, Phase.isOpen] using hquiet
  follows := by simp [Follows, hidle]
  others _ _ := rfl

theorem Alone.lockable (halone : Alone start sink call state) (id : OutboxId) :
    state.outbox.lockable call id = true :=
  lockable_iff.mpr fun owner version hheld => halone.only id owner version hheld

theorem Alone.committed (halone : Alone start sink call state)
    (hopen : (state.passes call).isOpen = true) (id : OutboxId) :
    state.outbox.committed id = start.outbox.committed id := by
  have hshows := halone.shows
  rw [Shows, if_pos hopen] at hshows
  exact (hshows id).1

theorem Alone.view (halone : Alone start sink call state)
    (hopen : (state.passes call).isOpen = true) (id : OutboxId) :
    state.outbox.view call id =
      (start.outbox.committed id).map (written (state.passes call) id) := by
  have hshows := halone.shows
  rw [Shows, if_pos hopen] at hshows
  exact (hshows id).2

/-- A phase that reads and writes nothing: the table stays. -/
theorem Alone.goto (halone : Alone start sink call before) {next : Phase}
    {confirmed : List (Call × OutboxId)} (hopen : (before.passes call).isOpen = true)
    (hnext : next.isOpen = true)
    (hwritten : ∀ id row, written next id row = written (before.passes call) id row)
    (hwellFormed : WellFormed next) (hfollows : Follows start sink call confirmed next) :
    Alone start sink call
      ⟨before.outbox, Function.update before.passes call next, confirmed⟩ where
  wellFormed := by simpa using hwellFormed
  only := halone.only
  shows := by
    simp only [Function.update_self, Shows, hnext, if_true]
    intro id
    refine ⟨halone.committed hopen id, ?_⟩
    rw [halone.view hopen id]
    congr 1
    funext row
    exact (hwritten id row).symm
  follows := by simpa using hfollows
  others other hother := by simpa [hother] using halone.others other hother

/-- A phase that locks or writes one row. -/
theorem Alone.put (halone : Alone start sink call before) {next : Phase} {id : OutboxId}
    {version : OutboxRow} {confirmed : List (Call × OutboxId)}
    (hopen : (before.passes call).isOpen = true) (hnext : next.isOpen = true)
    (hversion : (start.outbox.committed id).map (written next id) = some version)
    (hwritten : ∀ other row, other ≠ id →
      written next other row = written (before.passes call) other row)
    (hwellFormed : WellFormed next) (hfollows : Follows start sink call confirmed next) :
    Alone start sink call
      ⟨before.outbox.put call id (some version), Function.update before.passes call next,
        confirmed⟩ where
  wellFormed := by simpa using hwellFormed
  only other owner held hheld := by
    rcases held_put_iff.mp hheld with ⟨-, howner, -⟩ | ⟨-, hold⟩
    · exact howner
    · exact halone.only other owner held hold
  shows := by
    simp only [Function.update_self, Shows, hnext, if_true]
    intro other
    refine ⟨by rw [committed_put, halone.committed hopen], ?_⟩
    by_cases heq : other = id
    · rw [heq, view_put_self, hversion]
    · rw [view_put_of_ne heq, halone.view hopen other]
      congr 1
      funext row
      exact (hwritten other row heq).symm
  follows := by simpa using hfollows
  others other hother := by simpa [hother] using halone.others other hother

theorem Alone.commit (halone : Alone start sink call before) {pass : Pass}
    (hphase : before.passes call = .committing pass) :
    Alone start sink call
      ⟨before.outbox.commit call, Function.update before.passes call (.returned pass),
        before.confirmed⟩ where
  wellFormed := by
    have hwf := halone.wellFormed
    rw [hphase] at hwf
    simp only [Function.update_self]
    exact hwf
  only id owner version hheld := halone.only id owner version (held_commit_iff.mp hheld).2
  shows := by
    simp only [Function.update_self, Shows, Phase.isOpen]
    refine ⟨fun id => ?_, fun id => ?_⟩
    · rw [Option.eq_none_iff_forall_ne_some]
      rintro ⟨owner, version⟩ hheld
      obtain ⟨hne, hold⟩ := held_commit_iff.mp hheld
      exact hne (halone.only id owner version hold)
    · have hview := halone.view (by simp [hphase, Phase.isOpen]) id
      rw [hphase] at hview
      rw [← hview]
      rcases commit_cases before.outbox call id with ⟨version, hheld, hcell⟩ | ⟨hnot, hcell⟩
      · rw [Table.committed, hcell, view_of_held hheld]
      · rw [Table.committed, hcell, view_of_not_held hnot, Table.committed]
  follows := by
    have hfollows := halone.follows
    rw [hphase] at hfollows
    simp only [Function.update_self]
    exact hfollows
  others other hother := by simpa [hother] using halone.others other hother

theorem Alone.rollback (halone : Alone start sink call before) {next : Phase}
    (hopen : (before.passes call).isOpen = true) (hnext : next = .threw ∨ next = .crashed) :
    Alone start sink call
      ⟨before.outbox.rollback call, Function.update before.passes call next, before.confirmed⟩ where
  wellFormed := by rcases hnext with rfl | rfl <;> simp [WellFormed]
  only id owner version hheld := halone.only id owner version (held_rollback_iff.mp hheld).2
  shows := by
    have hquiet : (before.outbox.rollback call).Quiet := by
      intro id
      rw [Option.eq_none_iff_forall_ne_some]
      rintro ⟨owner, version⟩ hheld
      obtain ⟨hne, hold⟩ := held_rollback_iff.mp hheld
      exact hne (halone.only id owner version hold)
    rcases hnext with rfl | rfl <;>
      simpa [Shows, Phase.isOpen, halone.committed hopen] using hquiet
  follows := by rcases hnext with rfl | rfl <;> simp [Follows]
  others other hother := by simpa [hother] using halone.others other hother

theorem Alone.relayOnce (halone : Alone start sink call before)
    (hphase : before.passes call = .idle) (options : RelayOptions) (now : Nat)
    (hwellFormed : WellFormed (.began ⟨options, now, [], [], none⟩)) :
    Alone start sink call
      ⟨before.outbox, Function.update before.passes call (.began ⟨options, now, [], [], none⟩),
        before.confirmed⟩ where
  wellFormed := by simpa using hwellFormed
  only := halone.only
  shows := by
    have hshows := halone.shows
    simp only [hphase, Shows, Phase.isOpen, Bool.false_eq_true, if_false] at hshows
    simp only [Function.update_self, Shows, Phase.isOpen, if_true]
    intro id
    refine ⟨hshows.2 id, ?_⟩
    rw [view_of_not_held (by simp [hshows.1 id]), hshows.2 id]
    cases start.outbox.committed id <;> rfl
  follows := by
    have hfollows := halone.follows
    rw [hphase] at hfollows
    simpa [Follows] using hfollows
  others other hother := by simpa [hother] using halone.others other hother

/-! ### The SELECT -/

theorem wanted_of_mem {pass : Pass} {done candidates : List (OutboxId × OutboxRow)}
    (hsplit : unpublished pass.options start.outbox = done ++ entry :: candidates) :
    start.outbox.committed entry.1 = some entry.2 ∧ pass.options.wanted entry.2 = true :=
  mem_unpublished.mp (by rw [hsplit]; exact List.mem_append_right _ List.mem_cons_self)

theorem Alone.select (halone : Alone start sink call before)
    (hstep : Relay.select before call = some after) : Alone start sink call after := by
  unfold Relay.select at hstep
  split at hstep
  case h_2 => cases hstep
  rename_i pass hphase
  have hopen : (before.passes call).isOpen = true := by simp [hphase, Phase.isOpen]
  have hview : ∀ id, before.outbox.view call id = start.outbox.committed id := by
    intro id
    have hview := halone.view hopen id
    rw [hview, hphase]
    cases start.outbox.committed id <;> rfl
  have hcandidates :
      (((before.outbox.scan call fun _ row => pass.options.wanted row).filterMap fun id =>
      (before.outbox.view call id).map fun row => (id, row)).insertionSort rowLe) =
        unpublished pass.options start.outbox := by
    apply eq_unpublished (List.pairwise_insertionSort rowLe _)
    · exact (nodup_candidates before.outbox call _).of_map
    · rintro ⟨id, row⟩
      rw [(List.perm_insertionSort rowLe _).mem_iff, List.mem_filterMap]
      simp only [mem_scan, hview, Option.map_eq_some_iff, Prod.mk.injEq]
      constructor
      · rintro ⟨id, ⟨row', hrow', hwanted⟩, row, hrow, rfl, rfl⟩
        cases hrow'.symm.trans hrow
        exact ⟨hrow, hwanted⟩
      · rintro ⟨hrow, hwanted⟩
        exact ⟨id, ⟨row, hrow, hwanted⟩, row, hrow, rfl, rfl⟩
  have hfollows := halone.follows
  rw [hphase] at hfollows
  obtain ⟨hrows, hsent, hfailed, hconfirmed⟩ := hfollows
  simp only [hcandidates] at hstep
  split at hstep <;> cases hstep
  · refine halone.goto hopen rfl (fun id row => by simp [written, hphase]) ?_ ?_
    · refine ⟨?_, hfailed, [], rfl, by simp [hsent]⟩
      rw [List.map_map]
      exact ((nodup_ids (nodup_unpublished pass.options start.outbox) fun entry hentry =>
        (mem_unpublished.mp hentry).1).sublist ((List.take_sublist _ _).map _))
    · exact ⟨hfailed, [], batch pass.options start.outbox,
        ⟨rfl, rfl, by simp [hsent], by simp [hconfirmed], by simp⟩, rfl⟩
  · refine halone.goto hopen rfl (fun id row => by simp [written, hphase]) ?_ ?_
    · refine ⟨?_, hsent, hfailed⟩
      rw [hrows]
      exact nodup_ids (nodup_unpublished pass.options start.outbox) fun entry hentry =>
        (mem_unpublished.mp hentry).1
    · exact ⟨hsent, hfailed, hconfirmed, [], rfl, by simp [hrows], by simp⟩

/-- Alone, every candidate is locked until the batch is full. -/
theorem Alone.lock (halone : Alone start sink call before)
    (hstep : Relay.lock before call = some after) : Alone start sink call after := by
  unfold Relay.lock at hstep
  split at hstep
  case h_2 => cases hstep
  rename_i pass id candidate candidates hphase
  split at hstep
  case isFalse => cases hstep
  rename_i hroom
  have hopen : (before.passes call).isOpen = true := by simp [hphase, Phase.isOpen]
  have hfollows := halone.follows
  have hwf := halone.wellFormed
  rw [hphase] at hfollows hwf
  obtain ⟨hsent, hfailed, hconfirmed, done, hsplit, hrows, hlength⟩ := hfollows
  obtain ⟨hcommitted, hwanted⟩ := wanted_of_mem hsplit
  have hview : before.outbox.view call id = some candidate := by
    rw [halone.view hopen id, hphase, hcommitted]
    rfl
  have hvisit : before.outbox.visit call id pass.options.wanted (fun row => row) =
      some (before.outbox.put call id (some candidate), true) := by
    simp [visit, halone.lockable id, hview, hwanted]
  rw [hvisit] at hstep
  simp only [view_put_self] at hstep
  cases hstep
  have hlocked : WellFormed (.locking { pass with rows := pass.rows ++ [envelope id candidate] }
      candidates) := by
    refine ⟨?_, hwf.2⟩
    rw [List.map_append, List.append_assoc]
    exact hwf.1
  refine halone.put hopen rfl ?_ (fun other row _ => by simp [written, hphase]) hlocked ?_
  · rw [hcommitted]
    rfl
  · refine ⟨hsent, hfailed, hconfirmed, done ++ [(id, candidate)], ?_, ?_, ?_⟩
    · rw [hsplit, List.append_assoc]
      rfl
    · rw [hrows, List.map_append]
      rfl
    · rw [hrows, List.length_map] at hroom
      rw [List.length_append, List.length_singleton]
      exact hroom

theorem Alone.endSelect (halone : Alone start sink call before)
    (hstep : Relay.endSelect before call = some after) : Alone start sink call after := by
  unfold Relay.endSelect at hstep
  split at hstep
  case h_2 => cases hstep
  rename_i pass candidates hphase
  split at hstep
  case isFalse => cases hstep
  rename_i hfull
  cases hstep
  have hfollows := halone.follows
  have hwf := halone.wellFormed
  rw [hphase] at hfollows hwf
  obtain ⟨hsent, hfailed, hconfirmed, done, hsplit, hrows, hlength⟩ := hfollows
  have hbatch : batch pass.options start.outbox = done := by
    rw [batch, hsplit]
    rcases hfull with rfl | hfull
    · rw [List.append_nil, List.take_of_length_le hlength]
    · rw [hrows, List.length_map] at hfull
      rw [List.take_append_of_le_length (by omega), List.take_of_length_le hlength]
  refine halone.goto (by simp [hphase, Phase.isOpen]) rfl (fun id row => by
    simp [written, hphase]) ?_ ?_
  · exact ⟨(List.nodup_append.mp hwf.1).1, hfailed, [], rfl, hsent.symm⟩
  · exact ⟨hfailed, [], done,
      ⟨hbatch, by simp [hrows], by simp [hsent], by simp [hconfirmed], by simp⟩, hrows⟩

/-! ### The other statements -/

theorem Finished.nodup {confirmed : List (Call × OutboxId)} {pass : Pass}
    (hfinished : Finished start sink call confirmed pass) : pass.sentIds.Nodup := by
  obtain ⟨sent, rest, hsent, -, -⟩ := hfinished.sent
  rw [hsent.sentIds]
  have hbatch : (batch pass.options start.outbox).Sublist (unpublished pass.options start.outbox) :=
    List.take_sublist _ _
  rw [hsent.split] at hbatch
  exact (nodup_ids (nodup_unpublished pass.options start.outbox) fun entry hentry =>
    (mem_unpublished.mp hentry).1).sublist
    (((List.sublist_append_left sent rest).trans hbatch).map _)

/-- The rows of the batch are rows of the table. -/
theorem Sent.committed {confirmed : List (Call × OutboxId)} {pass : Pass}
    {sent rest : List (OutboxId × OutboxRow)}
    (hsent : Sent start sink call confirmed pass sent rest) (hentry : entry ∈ sent ++ rest) :
    start.outbox.committed entry.1 = some entry.2 ∧ pass.options.wanted entry.2 = true := by
  rw [← hsent.split] at hentry
  exact mem_unpublished.mp (List.mem_of_mem_take hentry)

theorem Finished.committed_sent {confirmed : List (Call × OutboxId)} {pass : Pass} {id : OutboxId}
    (hfinished : Finished start sink call confirmed pass) (hid : id ∈ pass.sentIds) :
    ∃ row, start.outbox.committed id = some row := by
  obtain ⟨sent, rest, hsent, -, -⟩ := hfinished.sent
  rw [hsent.sentIds] at hid
  obtain ⟨entry, hentry, rfl⟩ := List.mem_map.mp hid
  exact ⟨entry.2, (hsent.committed (List.mem_append_left _ hentry)).1⟩

theorem Finished.committed_failed {confirmed : List (Call × OutboxId)} {pass : Pass}
    {failedId : OutboxId} (hfinished : Finished start sink call confirmed pass)
    (hfailed : pass.failedId = some failedId) :
    ∃ row, start.outbox.committed failedId = some row := by
  obtain ⟨sent, rest, hsent, hhead, -⟩ := hfinished.sent
  rw [hhead] at hfailed
  obtain ⟨entry, hentry, rfl⟩ := Option.map_eq_some_iff.mp hfailed
  exact ⟨entry.2, (hsent.committed (List.mem_append_right _ (List.mem_of_mem_head? hentry))).1⟩

theorem Alone.runs (halone : Alone start sink call before) {action : Action} {phase next : Phase}
    {confirmed : List (Call × OutboxId)} (hphase : before.passes call = phase)
    (hruns : Runs before action call phase next outbox confirmed)
    (hsole : Sole sink call before action)
    (hselect : ∀ caller, action ≠ .select caller ∧ action ≠ .lock caller ∧
      action ≠ .endSelect caller) :
    Alone start sink call ⟨outbox, Function.update before.passes call next, confirmed⟩ := by
  have hfollows := halone.follows
  have hwf := halone.wellFormed
  have hwf' := hwf
  rw [hphase] at hfollows hwf hwf'
  have hnext := hwf'.step hruns
  cases hruns with
  | began call options now => exact halone.relayOnce hphase options now hnext
  | selectedUnlocked call pass rows hmode hnodup hrows => exact absurd rfl (hselect call).1
  | selected call pass candidates hmode hnodup => exact absurd rfl (hselect call).1
  | locked call pass id candidate row candidates => exact absurd rfl (hselect call).2.1
  | dropped call pass id candidate row candidates => exact absurd rfl (hselect call).2.1
  | skipped call pass candidate candidates => exact absurd rfl (hselect call).2.1
  | selectEnded call pass candidates => exact absurd rfl (hselect call).2.2
  | published call pass row rest =>
      obtain ⟨hfailed, sent, unsent, hsent, hrest⟩ := hfollows
      obtain ⟨entry, unsent', rfl, rfl, rfl⟩ := List.map_eq_cons_iff.mp hrest.symm
      exact halone.goto (by simp [hphase, Phase.isOpen]) rfl (fun id row => by
        simp [written, hphase])
        hnext ⟨hfailed, sent, entry, unsent', hsent, rfl, rfl⟩
  | confirmed call pass row rest =>
      obtain ⟨hfailed, sent, entry, unsent, hsent, rfl, rfl⟩ := hfollows
      refine halone.goto (by simp [hphase, Phase.isOpen]) rfl (fun id row => by
        simp [written, hphase])
        hnext ⟨hfailed, sent ++ [entry], unsent, ⟨?_, ?_, ?_, ?_, ?_⟩, rfl⟩
      · rw [List.append_assoc]
        exact hsent.split
      · rw [List.append_assoc]
        exact hsent.rows
      · simp [hsent.sentIds, envelope]
      · simp [hsent.confirmed, envelope]
      · intro other hmem
        rcases List.mem_append.mp hmem with hold | hnew
        · exact hsent.sink other hold
        · rw [List.mem_singleton.mp hnew]
          exact hsole.2 pass _ _ hphase
  | failed call pass row rest outcome houtcome =>
      obtain ⟨hfailed, sent, entry, unsent, hsent, rfl, rfl⟩ := hfollows
      exact halone.goto (by simp [hphase, Phase.isOpen]) rfl (fun id row => by
        simp [written, hphase])
        hnext ⟨sent, entry :: unsent, ⟨hsent.split, hsent.rows, hsent.sentIds, hsent.confirmed,
          hsent.sink⟩, rfl, by simpa using ⟨outcome, houtcome, hsole.2 pass _ _ hphase⟩⟩
  | loopEnded call pass =>
      obtain ⟨hfailed, sent, unsent, hsent, hrest⟩ := hfollows
      have hnone : unsent = [] := List.map_eq_nil_iff.mp hrest.symm
      subst hnone
      exact halone.goto (by simp [hphase, Phase.isOpen]) rfl (fun id row => by
        simp [written, hphase])
        hnext ⟨sent, [], hsent, by simp [hfailed], by simp⟩
  | hooked call pass =>
      refine halone.goto (by simp [hphase, Phase.isOpen]) rfl ?_ hnext hfollows
      intro id row
      simp [written, hphase]
  | marked call pass id rest row hlock hview =>
      have hnodup := hfollows.nodup
      obtain ⟨-, visited, hvisited⟩ := hwf
      rw [hvisited] at hnodup
      have hrest : id ∉ rest := (List.nodup_cons.mp (List.nodup_append.mp hnodup).2.1).1
      have hid : id ∈ pass.sentIds := by simp [hvisited]
      have hcurrent : start.outbox.committed id = some row := by
        rw [halone.view (by simp [hphase, Phase.isOpen]) id, hphase] at hview
        simpa [written] using hview
      refine halone.put (by simp [hphase, Phase.isOpen]) rfl ?_ ?_ hnext hfollows
      · simp [hcurrent, written, hid, hrest]
      · intro other row' hne
        simp [written, hphase, hne]
  | markedGone call pass id rest hview =>
      have hid : id ∈ pass.sentIds := by
        obtain ⟨-, visited, hvisited⟩ := hwf
        simp [hvisited]
      obtain ⟨row, hrow⟩ := hfollows.committed_sent hid
      rw [halone.view (by simp [hphase, Phase.isOpen]) id, hrow] at hview
      cases hview
  | markedAll call pass hfailed =>
      refine halone.goto (by simp [hphase, Phase.isOpen]) rfl ?_ hnext hfollows
      intro id row
      simp [written, hphase, hfailed]
  | markedSent call pass failedId hfailed =>
      refine halone.goto (by simp [hphase, Phase.isOpen]) rfl ?_ hnext ⟨hfollows, hfailed⟩
      intro id row
      simp [written, hphase]
  | counted call pass failedId row hlock hview =>
      obtain ⟨hfinished, hfailed⟩ := hfollows
      have hnot := hwf.1.failedId_not_sent hfailed
      have hcurrent : start.outbox.committed failedId = some row := by
        rw [halone.view (by simp [hphase, Phase.isOpen]) failedId, hphase] at hview
        simpa [written, hnot] using hview
      refine halone.put (by simp [hphase, Phase.isOpen]) rfl ?_ ?_ hnext hfinished
      · simp [hcurrent, written, hnot, hfailed]
      · intro other row' hne
        simp [written, hphase, hfailed, Ne.symm hne]
  | countedGone call pass failedId hview =>
      obtain ⟨row, hrow⟩ := hfollows.1.committed_failed hfollows.2
      rw [halone.view (by simp [hphase, Phase.isOpen]) failedId, hrow] at hview
      cases hview
  | committed call pass => exact halone.commit hphase
  | aborted call phase hopen => exact halone.rollback (hphase ▸ hopen) (.inl rfl)
  | crashed call phase hopen => exact halone.rollback (hphase ▸ hopen) (.inr rfl)
  | enqueued call id data occurredAt now houtcome hnone => exact hsole.elim

theorem Runs.caller {action : Action} {phase next : Phase} {confirmed : List (Call × OutboxId)}
    (hruns : Runs before action call phase next outbox confirmed) : action.caller = call := by
  cases hruns <;> rfl

theorem Sole.caller {action : Action} (hsole : Sole sink call state action) :
    action.caller = call := by
  cases action with
  | settle caller outcome => exact hsole.1
  | enqueue caller id data occurredAt now => exact hsole.elim
  | _ => exact hsole

theorem Alone.step (halone : Alone start sink call before) {action : Action}
    (hsole : Sole sink call before action) (hstep : Relay.step before action = some after) :
    Alone start sink call after := by
  have hcaller := hsole.caller
  by_cases hselect : ∃ caller, action = .select caller ∨ action = .lock caller ∨
    action = .endSelect caller
  · obtain ⟨caller, rfl | rfl | rfl⟩ := hselect
    · cases hcaller
      exact halone.select hstep
    · cases hcaller
      exact halone.lock hstep
    · cases hcaller
      exact halone.endSelect hstep
  · push Not at hselect
    obtain ⟨caller, phase, next, outbox, confirmed, hphase, rfl, hruns⟩ := step_runs hstep
    cases hruns.caller.symm.trans hcaller
    exact halone.runs hphase hruns hsole hselect

theorem alone_reach (hquiet : start.outbox.Quiet) (hidle : start.passes call = .idle)
    (hreach : Reach step (Sole sink call) start state) : Alone start sink call state := by
  apply Reach.invariant (Alone start sink call) (alone_start hquiet hidle) _ hreach
  intro before action after _ hbefore hsole hstep
  exact hbefore.step hsole hstep

/-! ### What a pass reports -/

/-- The answer of a pass, and what has become of the rows of its batch and of all others. -/
structure Reported (start finish : State) (call : Call) (pass : Pass)
    (rows : List (OutboxId × OutboxRow)) (published failed : Nat) : Prop where
  published_le : published ≤ rows.length
  failed_iff : failed = 0 ∧ published = rows.length ∨ failed = 1 ∧ published < rows.length
  confirmed : finish.confirmed =
    start.confirmed ++ (rows.take published).map fun entry => (call, entry.1)
  sent : ∀ entry ∈ rows.take published,
    finish.outbox.committed entry.1 = some (markSent pass.now entry.2)
  next : failed = 1 → ∀ entry, rows[published]? = some entry →
    finish.outbox.committed entry.1 = some (countAttempt entry.2) ∧
      (countAttempt entry.2).publishedAt = none
  others : ∀ id, id ∉ (rows.take (published + failed)).map Prod.fst →
    finish.outbox.committed id = start.outbox.committed id

theorem Alone.committed_returned (halone : Alone start sink call state) {pass : Pass}
    (hphase : state.passes call = .returned pass) :
    state.outbox.Quiet ∧ ∀ id, state.outbox.committed id =
      (start.outbox.committed id).map (written (.committing pass) id) := by
  have hshows := halone.shows
  simpa only [hphase, Shows, Phase.isOpen, Bool.false_eq_true, if_false] using hshows

theorem Alone.reported (halone : Alone start sink call state) {pass : Pass}
    (hphase : state.passes call = .returned pass) :
    Reported start state call pass (batch pass.options start.outbox) pass.result.1
      pass.result.2 := by
  have hcommitted := (halone.committed_returned hphase).2
  have hfollows := halone.follows
  have hwf := halone.wellFormed
  rw [hphase] at hfollows hwf
  obtain ⟨sent, rest, hsent, hfailed, -⟩ := hfollows.sent
  have hpublished : pass.result.1 = sent.length := by simp [Pass.result, hsent.sentIds]
  have hcount : pass.result.2 = if rest = [] then 0 else 1 := by
    cases rest <;> simp [Pass.result, hfailed]
  have htake : (sent ++ rest).take sent.length = sent := by simp
  rw [hpublished, hcount, hsent.split]
  constructor
  · simp
  · cases rest <;> simp
  · rw [htake, hsent.confirmed]
  · rw [htake]
    intro entry hentry
    have hid : entry.1 ∈ pass.sentIds := hsent.sentIds ▸ List.mem_map_of_mem hentry
    rw [hcommitted, (hsent.committed (List.mem_append_left _ hentry)).1]
    simp [written, hid]
  · intro _ entry hentry
    rw [List.getElem?_append_right (Nat.le_refl _), Nat.sub_self,
      ← List.head?_eq_getElem?] at hentry
    have hnext : pass.failedId = some entry.1 := by simp [hfailed, hentry]
    obtain ⟨hrow, hwanted⟩ :=
      hsent.committed (List.mem_append_right _ (List.mem_of_mem_head? hentry))
    refine ⟨?_, ?_⟩
    · rw [hcommitted, hrow]
      simp [written, hwf.failedId_not_sent hnext, hnext]
    · simp only [RelayOptions.wanted, Bool.and_eq_true, Option.isNone_iff_eq_none] at hwanted
      simp [countAttempt, hwanted.1]
  · intro id hid
    have hnot : id ∉ pass.sentIds := by
      rw [hsent.sentIds]
      intro hmem
      apply hid
      rw [List.take_append, List.map_append]
      exact List.mem_append_left _ (by rwa [List.take_of_length_le (by omega)])
    have hnext : pass.failedId ≠ some id := by
      intro heq
      apply hid
      rw [hfailed] at heq
      obtain ⟨entry, hentry, rfl⟩ := Option.map_eq_some_iff.mp heq
      cases rest with
      | nil => cases hentry
      | cons first rest =>
          cases hentry
          simp [List.take_append]
    rw [hcommitted]
    cases start.outbox.committed id <;> simp [written, hnot, hnext]

/-- A pass that nobody disturbs does what it reports, and nothing if it throws. -/
theorem relayOnce_exact {start state : State} {call : Call} (hquiet : start.outbox.Quiet)
    (hidle : start.passes call = .idle)
    (hreach : Reach step (Undisturbed call) start state) :
    (∀ pass, state.passes call = .returned pass →
      Reported start state call pass (batch pass.options start.outbox) pass.result.1
        pass.result.2) ∧
    (state.passes call = .threw → ∀ id, state.outbox.cell id = start.outbox.cell id) := by
  have halone := alone_reach hquiet hidle hreach
  refine ⟨fun pass hphase => halone.reported hphase, ?_⟩
  intro hphase id
  have hshows := halone.shows
  simp only [hphase, Shows, Phase.isOpen, Bool.false_eq_true, if_false] at hshows
  exact Cell.ext (hshows.2 id) ((hshows.1 id).trans (hquiet id).symm)

/-- Three rows that nobody has published, created one after the other. -/
def freshRows : Table Call OutboxId OutboxRow :=
  let row (orderId : OrderId) : OutboxRow :=
    enqueueOrderPlaced ⟨orderId, "a@shop.test", 100, "UAH", [⟨3, 1⟩]⟩ orderId orderId
  Table.ofRows [(13, row 1), (12, row 2), (11, row 3)]

/-- A pass over two of them, the second of which is refused. -/
def refusedTrace : List Action :=
  [.relayOnce 0 ⟨2, .skipLocked, none⟩ 20, .select 0, .lock 0, .lock 0, .endSelect 0, .publish 0,
    .settle 0 .confirmed, .publish 0, .settle 0 .refused, .afterPublish 0, .mark 0, .mark 0,
    .markFailed 0, .commit 0]

theorem relayOnce_exact_refused : ∃ state pass,
    Reach step (Undisturbed 0) (State.init freshRows) state ∧ state.passes 0 = .returned pass ∧
      (batch pass.options freshRows).map Prod.fst = [13, 12] ∧ pass.result = (1, 1) ∧
        Reported (State.init freshRows) state 0 pass (batch pass.options freshRows) 1 1 := by
  obtain ⟨state, hreach, hcheck⟩ : ∃ state, Reach step (Undisturbed 0)
      (State.init freshRows) state ∧
      decide (∃ pass ∈ (state.passes 0).pass, state.passes 0 = .returned pass ∧
        (batch pass.options freshRows).map Prod.fst = [13, 12] ∧ pass.result = (1, 1)) = true :=
    exists_reach_of_runWithin refusedTrace (by decide +kernel)
  obtain ⟨pass, -, hphase, hbatch, hresult⟩ := of_decide_eq_true hcheck
  have hreported := (relayOnce_exact (quiet_ofRows _) rfl hreach).1 pass hphase
  rw [hresult] at hreported
  exact ⟨state, pass, hreach, hphase, hbatch, hresult, hreported⟩

end Marketplace.Relay
