import Mathlib.Data.Prod.Lex
import Mathlib.Order.WellFounded
import Marketplace.Outbox.RelayAlone

/-!
# Pass after pass

A pass stops at the first row that cannot be published, and the next pass selects in the same order.
So repeated passes take the rows from the head of the queue up to the first such row, and stay
there.
-/

namespace Marketplace.Relay

open ReadCommitted ReadCommitted.Table Transition

variable {bad : OutboxId → Prop} {options : RelayOptions} {start middle finish before state : State}
  {call : Call} {outbox : Table Call OutboxId OutboxRow}

/-- The rows of `bad` are never confirmed, and all others always are. -/
def Picky (bad : OutboxId → Prop) (id : OutboxId) (outcome : Outcome) : Prop :=
  outcome = .confirmed ↔ ¬ bad id

/-- A pass from its first statement to its answer. -/
structure OnePass (bad : OutboxId → Prop) (options : RelayOptions) (call : Call)
    (start finish : State) :
    Prop where
  idle : start.passes call = .idle
  reach : Reach step (Sole (Picky bad) call) start finish
  returned : ∃ pass, finish.passes call = .returned pass ∧ pass.options = options

/-- So many passes, one after the other. -/
inductive Passes (bad : OutboxId → Prop) (options : RelayOptions) (start : State) : Nat →
    State → Prop
  | refl : Passes bad options start 0 start
  | more {count : Nat} {middle finish : State} (hpasses : Passes bad options start count middle)
      (hpass : OnePass bad options count middle finish) :
      Passes bad options start (count + 1) finish

/-- The rows that are not published, in the order of the SELECT. -/
def pending (outbox : Table Call OutboxId OutboxRow) : List (OutboxId × OutboxRow) :=
  unpublished ⟨0, .skipLocked, none⟩ outbox

/-! ### A pass comes to its end -/

namespace Phase

/-- What is left to do: the statement, and its rows. -/
def ahead : Phase → Nat ×ₗ Nat
  | began _ => toLex (7, 0)
  | locking _ candidates => toLex (6, candidates.length)
  | publishing _ rest => toLex (5, 2 * rest.length)
  | awaiting _ _ rest => toLex (5, 2 * rest.length + 1)
  | published _ => toLex (4, 0)
  | marking _ rest => toLex (3, rest.length)
  | markingFailed _ _ => toLex (2, 0)
  | committing _ => toLex (1, 0)
  | idle | returned _ | threw | crashed => toLex (0, 0)

end Phase

/-- A step that brings the pass closer to its end. -/
structure Advances (bad : OutboxId → Prop) (call : Call) (before : State) (action : Action)
    (after : State) : Prop where
  sole : Sole (Picky bad) call before action
  step : step before action = some after
  ahead : (after.passes call).ahead < (before.passes call).ahead
  running : (after.passes call).isOpen = true ∨ (after.passes call).isReturned = true
  options : (after.passes call).pass.map Pass.options = (before.passes call).pass.map Pass.options

theorem Advances.of_step (action : Action) {phase next : Phase} {confirmed : List (Call × OutboxId)}
    (hphase : before.passes call = phase) (hsole : Sole (Picky bad) call before action)
    (hstep : Relay.step before action =
      some ⟨outbox, Function.update before.passes call next, confirmed⟩)
    (hahead : next.ahead < phase.ahead) (hrunning : next.isOpen = true ∨ next.isReturned = true)
    (hoptions : next.pass.map Pass.options = phase.pass.map Pass.options) :
    ∃ action after, Advances bad call before action after := by
  refine ⟨action, _, hsole, hstep, ?_, ?_, ?_⟩
  · simpa [hphase] using hahead
  · simpa using hrunning
  · simpa [hphase] using hoptions

theorem exists_visit {id : OutboxId} (hlock : outbox.lockable call id = true)
    (cond : OutboxRow → Bool) (set : OutboxRow → OutboxRow) :
    ∃ next hit, outbox.visit call id cond set = some (next, hit) := by
  unfold visit
  rw [if_pos hlock]
  cases outbox.view call id with
  | none => exact ⟨_, _, rfl⟩
  | some row => by_cases hcond : cond row = true <;> simp [hcond]

/-- The next candidate is locked, unless the batch is full. -/
theorem Alone.advances_locking (halone : Alone start (Picky bad) call before) {pass : Pass}
    {candidates : List (OutboxId × OutboxRow)}
    (hphase : before.passes call = .locking pass candidates) :
    ∃ action after, Advances bad call before action after := by
  by_cases hfull : candidates = [] ∨ pass.options.batchSize ≤ pass.rows.length
  · exact Advances.of_step (.endSelect call) hphase rfl
      (by simp only [Relay.step, Relay.endSelect, hphase, if_pos hfull]; rfl)
      (by simp [Phase.ahead, Prod.Lex.toLex_lt_toLex]) (.inl (by rfl)) (by rfl)
  · rw [not_or, Nat.not_le] at hfull
    obtain ⟨⟨id, row⟩, candidates, rfl⟩ := List.exists_cons_of_ne_nil hfull.1
    have hopen : (before.passes call).isOpen = true := by simp [hphase, Phase.isOpen]
    have hfollows := halone.follows
    rw [hphase] at hfollows
    obtain ⟨-, -, -, done, hsplit, -, -⟩ := hfollows
    obtain ⟨hcommitted, hwanted⟩ := wanted_of_mem hsplit
    have hview : before.outbox.view call id = some row := by
      rw [halone.view hopen id, hphase, hcommitted]
      rfl
    have hvisit : before.outbox.visit call id pass.options.wanted (fun row => row) =
        some (before.outbox.put call id (some row), true) := by
      simp [visit, halone.lockable id, hview, hwanted]
    exact Advances.of_step (.lock call) hphase rfl
      (by simp only [Relay.step, Relay.lock, hphase, if_pos hfull.2, hvisit, view_put_self]; rfl)
      (by simp [Phase.ahead, Prod.Lex.toLex_lt_toLex]) (.inl (by rfl)) (by rfl)

theorem Alone.advances_marking (halone : Alone start (Picky bad) call before) {pass : Pass}
    {rest : List OutboxId} (hphase : before.passes call = .marking pass rest) :
    ∃ action after, Advances bad call before action after := by
  cases rest with
  | nil =>
      cases hfailed : pass.failedId with
      | none =>
          exact Advances.of_step (.mark call) hphase rfl
            (by simp only [Relay.step, Relay.mark, hphase, hfailed]; rfl)
            (by simp [Phase.ahead, Prod.Lex.toLex_lt_toLex]) (.inl (by rfl)) (by rfl)
      | some failedId =>
          exact Advances.of_step (.mark call) hphase rfl
            (by simp only [Relay.step, Relay.mark, hphase, hfailed]; rfl)
            (by simp [Phase.ahead, Prod.Lex.toLex_lt_toLex]) (.inl (by rfl)) (by rfl)
  | cons id rest =>
      obtain ⟨next, hit, hvisit⟩ :=
        exists_visit (halone.lockable id) (fun _ => true) (markSent pass.now)
      exact Advances.of_step (.mark call) hphase rfl
        (by simp only [Relay.step, Relay.mark, hphase, hvisit]; rfl)
        (by simp [Phase.ahead, Prod.Lex.toLex_lt_toLex]) (.inl (by rfl)) (by rfl)

/-- A pass that nobody disturbs is never stuck. -/
theorem Alone.advances (halone : Alone start (Picky bad) call before)
    (hopen : (before.passes call).isOpen = true) : ∃ action after,
    Advances bad call before action after := by
  cases hphase : before.passes call with
  | idle | returned pass | threw | crashed => simp [hphase, Phase.isOpen] at hopen
  | began pass =>
      cases hmode : pass.options.lockMode with
      | none =>
          exact Advances.of_step (.select call) hphase rfl
            (by simp only [Relay.step, Relay.select, hphase, hmode]; rfl)
            (by simp [Phase.ahead, Prod.Lex.toLex_lt_toLex]) (.inl (by rfl)) (by rfl)
      | skipLocked | forUpdate =>
          exact Advances.of_step (.select call) hphase rfl
            (by simp only [Relay.step, Relay.select, hphase, hmode]; rfl)
            (by simp [Phase.ahead, Prod.Lex.toLex_lt_toLex]) (.inl (by rfl)) (by rfl)
  | locking pass candidates => exact halone.advances_locking hphase
  | publishing pass rest =>
      cases rest with
      | nil =>
          exact Advances.of_step (.endLoop call) hphase rfl
            (by simp only [Relay.step, Relay.endLoop, hphase]; rfl)
            (by simp [Phase.ahead, Prod.Lex.toLex_lt_toLex]) (.inl (by rfl)) (by rfl)
      | cons row rest =>
          exact Advances.of_step (.publish call) hphase rfl
            (by simp only [Relay.step, Relay.publish, hphase]; rfl)
            (by simp [Phase.ahead, Prod.Lex.toLex_lt_toLex]; omega) (.inl (by rfl)) (by rfl)
  | awaiting pass row rest =>
      have hsink : ∀ outcome, Picky bad row.id outcome →
          Sole (Picky bad) call before (.settle call outcome) := by
        intro outcome houtcome
        refine ⟨rfl, fun pass' row' rest' hphase' => ?_⟩
        cases hphase.symm.trans hphase'
        exact houtcome
      by_cases hbad : bad row.id
      · exact Advances.of_step _ hphase (hsink .refused (by simp [Picky, hbad]))
          (by simp only [Relay.step, Relay.settle, hphase]; rfl)
          (by simp [Phase.ahead, Prod.Lex.toLex_lt_toLex]) (.inl (by rfl)) (by rfl)
      · exact Advances.of_step _ hphase (hsink .confirmed (by simp [Picky, hbad]))
          (by simp only [Relay.step, Relay.settle, hphase]; rfl)
          (by simp [Phase.ahead, Prod.Lex.toLex_lt_toLex]) (.inl (by rfl)) (by rfl)
  | published pass =>
      exact Advances.of_step (.afterPublish call) hphase rfl
        (by simp only [Relay.step, Relay.afterPublish, hphase]; rfl)
        (by simp [Phase.ahead, Prod.Lex.toLex_lt_toLex]) (.inl (by rfl)) (by rfl)
  | marking pass rest => exact halone.advances_marking hphase
  | markingFailed pass failedId =>
      obtain ⟨next, hit, hvisit⟩ := exists_visit (halone.lockable failedId)
          (fun _ => true) countAttempt
      exact Advances.of_step (.markFailed call) hphase rfl
        (by simp only [Relay.step, Relay.markFailed, hphase, hvisit]; rfl)
        (by simp [Phase.ahead, Prod.Lex.toLex_lt_toLex]) (.inl (by rfl)) (by rfl)
  | committing pass =>
      exact Advances.of_step (.commit call) hphase rfl
        (by simp only [Relay.step, Relay.commit, hphase]; rfl)
        (by simp [Phase.ahead, Prod.Lex.toLex_lt_toLex]) (.inr (by rfl)) (by rfl)

theorem Alone.exists_returned (halone : Alone start (Picky bad) call before)
    (hopen : (before.passes call).isOpen = true) : ∃ finish pass,
    Reach Relay.step (Sole (Picky bad) call) before finish ∧ finish.passes call = .returned pass ∧
      (before.passes call).pass.map Pass.options = some pass.options := by
  induction hahead :
    (before.passes call).ahead using WellFoundedLT.induction generalizing before with
  | ind measure ih =>
      obtain ⟨action, after, hadvances⟩ := halone.advances hopen
      have hfirst : Reach Relay.step (Sole (Picky bad) call) before after :=
        .tail .refl hadvances.sole hadvances.step
      rw [← hadvances.options]
      rcases hadvances.running with hrunning | hreturned
      · obtain ⟨finish, pass, hreach, hphase, hoptions⟩ := ih _ (hahead ▸ hadvances.ahead)
          (halone.step hadvances.sole hadvances.step) hrunning rfl
        exact ⟨finish, pass, hfirst.trans hreach, hphase, hoptions⟩
      · cases hphase : after.passes call with
        | returned pass => exact ⟨after, pass, hfirst, hphase, rfl⟩
        | _ => simp [hphase, Phase.isReturned] at hreturned

theorem exists_onePass (bad : OutboxId → Prop) (options : RelayOptions)
    (hquiet : start.outbox.Quiet) (hidle : start.passes call = .idle) : ∃ finish,
    OnePass bad options call start finish := by
  have hstep : step start (.relayOnce call options 0) =
      some (start.goto call (.began ⟨options, 0, [], [], none⟩)) := by
    simp [step, relayOnce, hidle]
  have hsole : Sole (Picky bad) call start (.relayOnce call options 0) := rfl
  have halone : Alone start (Picky bad) call _ := (alone_start hquiet hidle).step hsole hstep
  obtain ⟨finish, pass, hreach, hphase, hoptions⟩ :=
    halone.exists_returned (by simp [State.goto, Phase.isOpen])
  refine ⟨finish, hidle, .trans (.tail .refl hsole hstep) hreach, pass, hphase, ?_⟩
  simpa [State.goto, Phase.pass] using hoptions.symm

/-! ### What a pass takes from the queue -/

theorem unpublished_congr {options' : RelayOptions} (hsame : options.notBefore = options'.notBefore)
    (outbox : Table Call OutboxId OutboxRow) :
    unpublished options outbox = unpublished options' outbox := by
  have hwanted : options.wanted = options'.wanted := by
    funext row
    simp [RelayOptions.wanted, hsame]
  rw [unpublished, unpublished, hwanted]

theorem mem_pending {entry : OutboxId × OutboxRow} : entry ∈ pending outbox ↔
    outbox.committed entry.1 = some entry.2 ∧ entry.2.publishedAt = none := by
  rw [pending, mem_unpublished]
  simp [RelayOptions.wanted]

theorem nodup_pending (outbox : Table Call OutboxId OutboxRow) :
    ((pending outbox).map Prod.fst).Nodup :=
  nodup_ids (nodup_unpublished _ outbox) fun _ hentry => (mem_pending.mp hentry).1

section Reported

variable {pass : Pass} {published failed : Nat} {entry : OutboxId × OutboxRow}

theorem Reported.take_eq
    (hreported : Reported start finish call pass (batch options start.outbox) published failed)
    (hall : options.notBefore = none) :
    (batch options start.outbox).take published = (pending start.outbox).take published := by
  have hle := hreported.published_le
  rw [batch, List.length_take] at hle
  rw [batch, List.take_take, Nat.min_eq_left (by omega)]
  exact congrArg (List.take published) (unpublished_congr hall _)

/-- A row that was not sent is still there, with one attempt more if it was its publish that
failed. -/
theorem Reported.kept
    (hreported : Reported start finish call pass (batch options start.outbox) published failed)
    (hall : options.notBefore = none) (hentry : entry ∈ (pending start.outbox).drop published) :
    finish.outbox.committed entry.1 = some entry.2 ∨
      finish.outbox.committed entry.1 = some (countAttempt entry.2) := by
  have hrow := (mem_pending.mp (List.mem_of_mem_drop hentry)).1
  by_cases hvisited :
    entry.1 ∈ ((batch options start.outbox).take (published + failed)).map Prod.fst
  · right
    obtain ⟨other, hother, hid⟩ := List.mem_map.mp hvisited
    have hother' : other = entry := by
      have hmem : other ∈ unpublished options start.outbox :=
        List.mem_of_mem_take (List.mem_of_mem_take hother)
      have hrow' := (mem_unpublished.mp hmem).1
      rw [hid, hrow] at hrow'
      exact Prod.ext hid (Option.some.inj hrow'.symm)
    rw [hother'] at hother
    have hnot : entry ∉ (batch options start.outbox).take published := by
      rw [hreported.take_eq hall]
      have hnodup : (pending start.outbox).Nodup := (nodup_pending start.outbox).of_map
      rw [← List.take_append_drop published (pending start.outbox)] at hnodup
      exact fun hsent => (List.nodup_append.mp hnodup).2.2 entry hsent entry hentry rfl
    rcases hreported.failed_iff with ⟨rfl, -⟩ | ⟨rfl, hlt⟩
    · exact absurd hother hnot
    · rw [List.take_succ_eq_append_getElem hlt] at hother
      rcases List.mem_append.mp hother with hsent | hnext
      · exact absurd hsent hnot
      · refine (hreported.next rfl entry ?_).1
        rw [List.getElem?_eq_getElem hlt, List.mem_singleton.mp hnext]
  · left
    rw [hreported.others _ hvisited, hrow]

theorem Reported.mem_drop
    (hreported : Reported start finish call pass (batch options start.outbox) published failed)
    (hall : options.notBefore = none) (hentry : entry ∈ pending finish.outbox) :
    entry.1 ∈ ((pending start.outbox).drop published).map Prod.fst := by
  obtain ⟨hrow, hunpublished⟩ := mem_pending.mp hentry
  have hpending : entry.1 ∈ (pending start.outbox).map Prod.fst := by
    by_cases hvisited :
      entry.1 ∈ ((batch options start.outbox).take (published + failed)).map Prod.fst
    · obtain ⟨other, hother, hid⟩ := List.mem_map.mp hvisited
      have hmem : other ∈ unpublished options start.outbox :=
        List.mem_of_mem_take (List.mem_of_mem_take hother)
      rw [← hid, pending, ← unpublished_congr hall]
      exact List.mem_map_of_mem hmem
    · rw [hreported.others _ hvisited] at hrow
      exact List.mem_map_of_mem (mem_pending.mpr ⟨hrow, hunpublished⟩)
  rw [← List.take_append_drop published (pending start.outbox), List.map_append] at hpending
  rcases List.mem_append.mp hpending with hsent | hrest
  · obtain ⟨other, hother, hid⟩ := List.mem_map.mp hsent
    rw [← hreported.take_eq hall] at hother
    have hmarked := hreported.sent other hother
    rw [hid, hrow, Option.some.injEq] at hmarked
    rw [hmarked] at hunpublished
    cases hunpublished
  · exact hrest

/-- The rows that a pass has sent are gone from the queue, and the order of the others is kept. -/
theorem Reported.pending_eq
    (hreported : Reported start finish call pass (batch options start.outbox) published failed)
    (hall : options.notBefore = none) :
    (pending finish.outbox).map Prod.fst =
    ((pending start.outbox).map Prod.fst).drop published := by
  let current (entry : OutboxId × OutboxRow) : OutboxId × OutboxRow :=
    (entry.1, (finish.outbox.committed entry.1).getD entry.2)
  have hcurrent : ∀ entry ∈ (pending start.outbox).drop published,
      finish.outbox.committed entry.1 = some (current entry).2 ∧
        (current entry).2.createdAt = entry.2.createdAt ∧ (current entry).2.publishedAt = none := by
    intro entry hentry
    have hunpublished := (mem_pending.mp (List.mem_of_mem_drop hentry)).2
    rcases hreported.kept hall hentry with hrow | hrow <;>
      simp [current, hrow, countAttempt, hunpublished]
  have hqueue : ((pending start.outbox).drop published).map current = pending finish.outbox := by
    apply eq_unpublished
    · rw [List.pairwise_map]
      refine ((pairwise_unpublished _ _).sublist (List.drop_sublist published _)).imp_of_mem ?_
      intro left right hleft hright hle
      have hleft' := (hcurrent left hleft).2.1
      have hright' := (hcurrent right hright).2.1
      unfold rowLe at hle ⊢
      rw [hleft', hright']
      exact hle
    · apply List.Nodup.of_map Prod.fst
      rw [List.map_map]
      exact (nodup_pending start.outbox).sublist ((List.drop_sublist published _).map _)
    · intro entry
      rw [← mem_unpublished]
      constructor
      · intro hentry
        obtain ⟨old, hold, rfl⟩ := List.mem_map.mp hentry
        exact mem_pending.mpr ⟨(hcurrent old hold).1, (hcurrent old hold).2.2⟩
      · intro hentry
        obtain ⟨old, hold, hid⟩ := List.mem_map.mp (hreported.mem_drop hall hentry)
        refine List.mem_map.mpr ⟨old, hold, ?_⟩
        have hrow := (hcurrent old hold).1
        rw [hid, (mem_pending.mp hentry).1] at hrow
        exact Prod.ext hid (Option.some.inj hrow).symm
  rw [← hqueue, List.map_map, ← List.map_drop]
  rfl

end Reported

/-! ### What is left of the queue -/

/-- From one state to a later one: the rows of `sent` have left the head of the queue, and they were
not bad. -/
structure Takes (bad : OutboxId → Prop) (start finish : State) (sent rest : List OutboxId) :
    Prop where
  before : (pending start.outbox).map Prod.fst = sent ++ rest
  after : (pending finish.outbox).map Prod.fst = rest
  good : ∀ id ∈ sent, ¬ bad id
  rows : ∀ id, (finish.outbox.committed id).isSome = (start.outbox.committed id).isSome

/-- Nothing is left that the next pass could send. -/
def Stuck (bad : OutboxId → Prop) (rest : List OutboxId) : Prop :=
  rest = [] ∨ ∃ id ∈ rest.head?, bad id

theorem OnePass.takes (hpass : OnePass bad options call start finish) (hquiet : start.outbox.Quiet)
    (hbatch : 1 ≤ options.batchSize) (hall : options.notBefore = none) :
    finish.outbox.Quiet ∧ (∀ other, other ≠ call → finish.passes other = start.passes other) ∧
      ∃ sent rest, Takes bad start finish sent rest ∧ (1 ≤ sent.length ∨ Stuck bad rest) := by
  have halone := alone_reach hquiet hpass.idle hpass.reach
  obtain ⟨pass, hphase, rfl⟩ := hpass.returned
  have hreported := halone.reported hphase
  obtain ⟨hquiet', hcommitted⟩ := halone.committed_returned hphase
  have hfollows := halone.follows
  rw [hphase] at hfollows
  obtain ⟨sent, unsent, hsent, -, hnext⟩ := hfollows.sent
  have hpublished : pass.result.1 = sent.length := by simp [Pass.result, hsent.sentIds]
  have htake : (pending start.outbox).take sent.length = sent := by
    rw [← hpublished, ← hreported.take_eq hall, hsent.split, hpublished, List.take_left]
  have hsplit : pending start.outbox = sent ++ (pending start.outbox).drop sent.length := by
    calc
      pending start.outbox =
          (pending start.outbox).take sent.length ++ (pending start.outbox).drop sent.length :=
        (List.take_append_drop _ _).symm
      _ = sent ++ (pending start.outbox).drop sent.length := by rw [htake]
  refine ⟨hquiet', halone.others, sent.map Prod.fst,
    ((pending start.outbox).drop sent.length).map Prod.fst, ⟨?_, ?_, ?_, ?_⟩, ?_⟩
  · rw [← List.map_append, ← hsplit]
  · rw [hreported.pending_eq hall, hpublished, List.map_drop]
  · intro id hid
    obtain ⟨entry, hentry, rfl⟩ := List.mem_map.mp hid
    exact (hsent.sink entry hentry).mp rfl
  · intro id
    rw [hcommitted, Option.isSome_map]
  · rcases Nat.eq_zero_or_pos sent.length with hnone | hsome
    · right
      have hhead : (pending start.outbox).head? = unsent.head? := by
        have hbatch' : batch pass.options start.outbox =
            (pending start.outbox).take pass.options.batchSize :=
          congrArg (List.take pass.options.batchSize) (unpublished_congr hall _)
        have hunsent := hsent.split
        rw [List.length_eq_zero_iff.mp hnone, List.nil_append, hbatch'] at hunsent
        rw [← hunsent, List.head?_take, if_neg (by omega)]
      rw [hnone, List.drop_zero]
      cases hpending : pending start.outbox with
      | nil => exact .inl rfl
      | cons entry rest =>
          rw [hpending, List.head?_cons] at hhead
          obtain ⟨outcome, hne, hsink⟩ := hnext entry hhead.symm
          refine .inr ⟨entry.1, rfl, ?_⟩
          by_contra hgood
          exact hne (hsink.mpr hgood)
    · left
      rwa [List.length_map]

theorem Takes.trans {sent rest sent' rest' : List OutboxId}
    (htakes : Takes bad start middle sent rest) (htakes' : Takes bad middle finish sent' rest') :
    Takes bad start finish (sent ++ sent') rest' where
  before := by
    rw [htakes.before, List.append_assoc, ← htakes'.before, htakes.after]
  after := htakes'.after
  good := by
    intro id hid
    rcases List.mem_append.mp hid with hid | hid
    · exact htakes.good id hid
    · exact htakes'.good id hid
  rows id := (htakes'.rows id).trans (htakes.rows id)

/-- A queue that is stuck stays as it is. -/
theorem Takes.stuck {sent rest : List OutboxId} (htakes : Takes bad start finish sent rest)
    (hstuck : Stuck bad ((pending start.outbox).map Prod.fst)) : Stuck bad rest := by
  rw [htakes.before] at hstuck
  cases sent with
  | nil => exact hstuck
  | cons id sent =>
      rcases hstuck with hnil | ⟨other, hother, hbad⟩
      · cases hnil
      · cases hother
        exact absurd hbad (htakes.good id List.mem_cons_self)

theorem Passes.takes {count : Nat} (hpasses : Passes bad options start count finish)
    (hquiet : start.outbox.Quiet) (hbatch : 1 ≤ options.batchSize)
    (hall : options.notBefore = none) :
    finish.outbox.Quiet ∧ (∀ other, count ≤ other → finish.passes other = start.passes other) ∧
      ∃ sent rest, Takes bad start finish sent rest ∧ (count ≤ sent.length ∨ Stuck bad rest) := by
  induction hpasses with
  | refl =>
      exact ⟨hquiet, fun _ _ => rfl, [], _, ⟨rfl, rfl, by simp, fun _ => rfl⟩, .inl (Nat.le_refl 0)⟩
  | more hpasses hpass ih =>
      obtain ⟨hquiet, hothers, sent, rest, htakes, hprogress⟩ := ih
      obtain ⟨hquiet', hothers', sent', rest', htakes', hprogress'⟩ :=
        hpass.takes hquiet hbatch hall
      refine ⟨hquiet', ?_, sent ++ sent', rest', htakes.trans htakes', ?_⟩
      · intro other hle
        rw [hothers' other (Nat.ne_of_gt hle), hothers other (Nat.le_of_succ_le hle)]
      · rcases hprogress with hlength | hstuck
        · rcases hprogress' with hsome | hstuck
          · exact .inl (by rw [List.length_append]; omega)
          · exact .inr hstuck
        · exact .inr (htakes'.stuck (htakes.after ▸ hstuck))

theorem exists_passes (bad : OutboxId → Prop) (hquiet : outbox.Quiet)
    (hbatch : 1 ≤ options.batchSize) (hall : options.notBefore = none) (count : Nat) :
    ∃ finish, Passes bad options (State.init outbox) count finish := by
  induction count with
  | zero => exact ⟨_, .refl⟩
  | succ count ih =>
      obtain ⟨middle, hpasses⟩ := ih
      obtain ⟨hquiet, hothers, -⟩ := hpasses.takes hquiet hbatch hall
      obtain ⟨finish, hpass⟩ :=
        exists_onePass bad options hquiet (hothers count (Nat.le_refl count))
      exact ⟨finish, hpasses.more hpass⟩

/-! ### Whether a bad row blocks the others -/

/-- Every row that can be published has been. -/
def Delivered (bad : OutboxId → Prop) (outbox : Table Call OutboxId OutboxRow)
    (finish : State) : Prop :=
  ∀ entry ∈ pending outbox, ¬ bad entry.1 → ∃ row, finish.outbox.committed entry.1 = some row ∧
    row.publishedAt.isSome = true

/-- So many passes can be made, and when they have been made the rows are delivered. -/
def Carries (bad : OutboxId → Prop) (options : RelayOptions)
    (outbox : Table Call OutboxId OutboxRow) (count : Nat) : Prop :=
  (∃ finish, Passes bad options (State.init outbox) count finish) ∧
    ∀ finish, Passes bad options (State.init outbox) count finish → Delivered bad outbox finish

/-- No row that fails comes before one that does not. -/
def Unblocked (bad : OutboxId → Prop) (outbox : Table Call OutboxId OutboxRow) : Prop :=
  ∀ first ∈ pending outbox, ∀ second ∈ pending outbox, rowLe first second → bad first.1 →
    bad second.1

instance (bad : OutboxId → Prop) [DecidablePred bad] (outbox : Table Call OutboxId OutboxRow) :
    Decidable (Unblocked bad outbox) :=
  inferInstanceAs (Decidable (∀ first ∈ pending outbox, ∀ second ∈ pending outbox, _ → _ → _))

/-- What is delivered has left the queue. -/
theorem Takes.delivered_iff {sent rest : List OutboxId}
    (htakes : Takes bad (State.init outbox) finish sent rest) :
    Delivered bad outbox finish ↔ ∀ id ∈ rest, bad id := by
  constructor
  · intro hdelivered id hid
    by_contra hgood
    have hpending : id ∈ (pending outbox).map Prod.fst := by
      rw [show (pending outbox).map Prod.fst = _ from htakes.before]
      exact List.mem_append_right _ hid
    obtain ⟨entry, hentry, rfl⟩ := List.mem_map.mp hpending
    obtain ⟨row, hrow, hpublished⟩ := hdelivered entry hentry hgood
    rw [← htakes.after] at hid
    obtain ⟨left, hleft, heq⟩ := List.mem_map.mp hid
    obtain ⟨hrow', hunpublished⟩ := mem_pending.mp hleft
    rw [heq, hrow, Option.some.injEq] at hrow'
    rw [hrow', hunpublished] at hpublished
    cases hpublished
  · intro hrest entry hentry hgood
    have hrow := (mem_pending.mp hentry).1
    obtain ⟨row, hrow'⟩ : ∃ row, finish.outbox.committed entry.1 = some row := by
      rw [← Option.isSome_iff_exists, htakes.rows]
      exact Option.isSome_iff_exists.mpr ⟨entry.2, hrow⟩
    refine ⟨row, hrow', ?_⟩
    rw [Option.isSome_iff_ne_none]
    intro hunpublished
    have hentry' : (entry.1, row) ∈ pending finish.outbox := mem_pending.mpr ⟨hrow', hunpublished⟩
    have hleft : entry.1 ∈ (pending finish.outbox).map Prod.fst :=
      List.mem_map.mpr ⟨_, hentry', rfl⟩
    rw [htakes.after] at hleft
    exact hgood (hrest _ hleft)

theorem Carries.unblocked {count : Nat} (hcarries : Carries bad options outbox count)
    (hquiet : outbox.Quiet) (hbatch : 1 ≤ options.batchSize) (hall : options.notBefore = none) :
    Unblocked bad outbox := by
  obtain ⟨⟨finish, hpasses⟩, hdelivered⟩ := hcarries
  obtain ⟨-, -, sent, rest, htakes, -⟩ := hpasses.takes hquiet hbatch hall
  have hrest := htakes.delivered_iff.mp (hdelivered finish hpasses)
  intro first hfirst second hsecond hle hbad
  by_contra hgood
  obtain ⟨done, left, hsplit, hdone, hleft⟩ := List.map_eq_append_iff.mp htakes.before
  change pending outbox = done ++ left at hsplit
  have hsorted := pairwise_unpublished ⟨0, .skipLocked, none⟩ outbox
  change (pending outbox).Pairwise rowLe at hsorted
  rw [hsplit] at hfirst hsecond hsorted
  -- The good row has been sent, the bad one has not, so the bad one comes later.
  have hsecond' : second ∈ done := by
    rcases List.mem_append.mp hsecond with hmem | hmem
    · exact hmem
    · exact absurd (hrest _ (hleft ▸ List.mem_map_of_mem hmem)) hgood
  have hfirst' : first ∈ left := by
    rcases List.mem_append.mp hfirst with hmem | hmem
    · exact absurd hbad (htakes.good _ (hdone ▸ List.mem_map_of_mem hmem))
    · exact hmem
  have hge : rowLe second first := (List.pairwise_append.mp hsorted).2.2 _ hsecond' _ hfirst'
  have hid : first.1 = second.1 := by
    unfold rowLe at hle hge
    unfold OutboxId at hle hge ⊢
    omega
  exact hgood (hid ▸ hbad)

theorem Unblocked.delivered (hunblocked : Unblocked bad outbox) {sent rest : List OutboxId}
    (htakes : Takes bad (State.init outbox) finish sent rest) (hstuck : Stuck bad rest) :
    Delivered bad outbox finish := by
  rw [htakes.delivered_iff]
  obtain ⟨done, left, hsplit, -, hleft⟩ := List.map_eq_append_iff.mp htakes.before
  change pending outbox = done ++ left at hsplit
  intro id hid
  rcases hstuck with hnil | ⟨head, hhead, hbad⟩
  · rw [hnil] at hid
    cases hid
  · rw [← hleft] at hid hhead
    cases left with
    | nil => cases hid
    | cons first left =>
        cases hhead
        obtain ⟨entry, hentry, rfl⟩ := List.mem_map.mp hid
        have hsorted := pairwise_unpublished ⟨0, .skipLocked, none⟩ outbox
        change (pending outbox).Pairwise rowLe at hsorted
        rw [hsplit, List.pairwise_append, List.pairwise_cons] at hsorted
        rcases List.mem_cons.mp hentry with rfl | hlater
        · exact hbad
        · exact hunblocked first (by simp [hsplit]) entry (by simp [hsplit, hlater])
            (hsorted.2.1.1 entry hlater) hbad

/-- The other rows are delivered, in as many passes as there are rows, if and only if no row that
fails comes before one of them; otherwise no number of passes delivers them. -/
theorem relay_carries_iff (bad : OutboxId → Prop) (options : RelayOptions)
    {outbox : Table Call OutboxId OutboxRow} (hquiet : outbox.Quiet)
    (hbatch : 1 ≤ options.batchSize) (hall : options.notBefore = none) :
    (Carries bad options outbox (pending outbox).length ↔ Unblocked bad outbox) ∧
      ∀ count, Carries bad options outbox count → Unblocked bad outbox := by
  refine ⟨⟨fun hcarries => hcarries.unblocked hquiet hbatch hall, fun hunblocked => ?_⟩,
    fun count hcarries => hcarries.unblocked hquiet hbatch hall⟩
  refine ⟨exists_passes bad hquiet hbatch hall _, fun finish hpasses => ?_⟩
  obtain ⟨-, -, sent, rest, htakes, hprogress⟩ := hpasses.takes hquiet hbatch hall
  apply hunblocked.delivered htakes
  rcases hprogress with hlength | hstuck
  · left
    have hids := congrArg List.length htakes.before
    change ((pending outbox).map Prod.fst).length = _ at hids
    rw [List.length_map, List.length_append] at hids
    exact List.length_eq_zero_iff.mp (by omega)
  · exact hstuck

/-- The last row fails, and the two before it are delivered. -/
theorem relay_carries_last : Carries (· = 11) ⟨1, .skipLocked, none⟩ freshRows 3 := by
  apply (relay_carries_iff (· = 11) ⟨1, .skipLocked, none⟩ (quiet_ofRows _)
    (Nat.le_refl 1) rfl).1.mpr
  decide +kernel

/-- The first row fails, and the others wait for ever. -/
theorem relay_blocked : ¬ ∃ count, Carries (· = 13) ⟨100, .skipLocked, none⟩ freshRows count := by
  rintro ⟨count, hcarries⟩
  have hunblocked := hcarries.unblocked (quiet_ofRows _) (by decide) rfl
  revert hunblocked
  decide +kernel

end Marketplace.Relay
