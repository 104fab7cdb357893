import Marketplace.Orders.CreateIdempotentRuns

/-!
# The row of an idempotency key

The row of a key is held by the call that claims it until that call commits the order it links, or
gives the key up. Everybody else waits for it and then replays the order it finds.
-/

namespace Marketplace.Orders

open ReadCommitted ReadCommitted.Table Transition

variable {Digest : Type} {requestHash : CreateOrderDto → Digest}
  {keys : Table Call Text (KeyRow Digest)} {calls : Call → Phase Digest} {call : Call}

/-- The version of a key row that a call in a given phase holds. -/
def Holds (requestHash : CreateOrderDto → Digest) (key : Text) (version : Option (KeyRow Digest)) :
    Phase Digest → Prop
  | .pricing request _ _ _ _ | .enqueuing request _ | .linking request _ =>
      key = request.idempotencyKey ∧ version = some ⟨requestHash request.dto, none⟩
  | .committing request saved =>
      key = request.idempotencyKey ∧ version = some ⟨requestHash request.dto, some saved.id⟩
  | _ => False

/-- What a call in a given phase knows about the row of its key. -/
def KeyOk (requestHash : CreateOrderDto → Digest) (keys : Table Call Text (KeyRow Digest))
    (call : Call) : Phase Digest → Prop
  | .conflicted request => ∃ row, keys.committed request.idempotencyKey = some row
  | .replaying request existing | .existing request existing =>
      ∃ row, existing = some row ∧ keys.committed request.idempotencyKey = some row
  | .pricing request _ _ _ _ | .enqueuing request _ | .linking request _ =>
      keys.cell request.idempotencyKey =
        ⟨none, some (call, some ⟨requestHash request.dto, none⟩)⟩
  | .committing request saved =>
      keys.cell request.idempotencyKey =
        ⟨none, some (call, some ⟨requestHash request.dto, some saved.id⟩)⟩
  | .created request saved =>
      keys.committed request.idempotencyKey = some ⟨requestHash request.dto, some saved.id⟩
  | .returned request order _ => ∃ orderId : OrderId,
      keys.committed request.idempotencyKey = some ⟨requestHash request.dto, some orderId⟩ ∧
      order.id = decimal orderId
  | .threw request .keyReused => ∃ row,
      keys.committed request.idempotencyKey = some row ∧ row.requestHash ≠ requestHash request.dto
  | _ => True

/-- The call whose order the committed row of a key links. -/
def Creates (requestHash : CreateOrderDto → Digest) (key : Text) (row : KeyRow Digest) :
    Phase Digest → Prop
  | .created request saved =>
      key = request.idempotencyKey ∧ row = ⟨requestHash request.dto, some saved.id⟩
  | .returned request order false =>
      key = request.idempotencyKey ∧ ∃ orderId : OrderId,
        row = ⟨requestHash request.dto, some orderId⟩ ∧ order.id = decimal orderId
  | _ => False

structure KeysInv (requestHash : CreateOrderDto → Digest) (keys : Table Call Text (KeyRow Digest))
    (calls : Call → Phase Digest) : Prop where
  held : ∀ key call version, (keys.cell key).held = some (call, version) →
    Holds requestHash key version (calls call)
  ok : ∀ call, KeyOk requestHash keys call (calls call)
  creator : ∀ key row, keys.committed key = some row →
    ∃ call, Creates requestHash key row (calls call)
  single : ∀ call other key row row', Creates requestHash key row (calls call) →
    Creates requestHash key row' (calls other) → call = other

theorem keysInv_init : KeysInv requestHash (State.init : State Digest).keys State.init.calls where
  held _ _ _ hheld := by cases hheld
  ok _ := trivial
  creator _ _ hrow := by cases hrow
  single _ _ _ _ _ hcreates := hcreates.elim

theorem committed_of_creates {key : Text} {row : KeyRow Digest} {phase : Phase Digest}
    (hok : KeyOk requestHash keys call phase) (hcreates : Creates requestHash key row phase) :
    keys.committed key = some row := by
  cases phase with
  | created request saved =>
      obtain ⟨rfl, rfl⟩ := hcreates
      exact hok
  | returned request order replayed =>
      cases replayed with
      | true => exact hcreates.elim
      | false =>
          obtain ⟨rfl, orderId, rfl, hid⟩ := hcreates
          obtain ⟨orderId', hrow, hid'⟩ := hok
          rw [hrow, decimal_nat_injective (hid'.symm.trans hid)]
  | _ => exact hcreates.elim

theorem KeyOk.other {after : Table Call Text (KeyRow Digest)} {mover : Call} {phase : Phase Digest}
    (hframe : Frame mover keys after)
    (hstable : ∀ key row, keys.committed key = some row → after.committed key = some row)
    (hne : call ≠ mover) (hok : KeyOk requestHash keys call phase) :
    KeyOk requestHash after call phase := by
  have hcell : ∀ {key : Text} {committed version : Option (KeyRow Digest)},
      keys.cell key = ⟨committed, some (call, version)⟩ →
      after.cell key = ⟨committed, some (call, version)⟩ := by
    intro key committed version heq
    rw [hframe.kept key call version hne (by rw [heq]), heq]
  cases phase with
  | conflicted request =>
      obtain ⟨row, hrow⟩ := hok
      exact ⟨row, hstable _ row hrow⟩
  | replaying request existing =>
      obtain ⟨row, hexisting, hrow⟩ := hok
      exact ⟨row, hexisting, hstable _ row hrow⟩
  | existing request existing =>
      obtain ⟨row, hexisting, hrow⟩ := hok
      exact ⟨row, hexisting, hstable _ row hrow⟩
  | pricing request rest items totalCents currency => exact hcell hok
  | enqueuing request saved => exact hcell hok
  | linking request saved => exact hcell hok
  | committing request saved => exact hcell hok
  | created request saved => exact hstable _ _ hok
  | returned request order replayed =>
      obtain ⟨orderId, hrow, hid⟩ := hok
      exact ⟨orderId, hstable _ _ hrow, hid⟩
  | threw request failure =>
      cases failure with
      | keyReused =>
          obtain ⟨row, hrow, hhash⟩ := hok
          exact ⟨row, hstable _ row hrow, hhash⟩
      | _ => trivial
  | _ => trivial

/-- The step lemma of the keys: only the caller's own row is left to check. -/
theorem KeysInv.move {after : Table Call Text (KeyRow Digest)} {phase next : Phase Digest}
    (hinv : KeysInv requestHash keys calls) (hphase : calls call = phase)
    (hframe : Frame call keys after)
    (hstable : ∀ key row, keys.committed key = some row → after.committed key = some row)
    (hheld : ∀ key version, (after.cell key).held = some (call, version) →
      Holds requestHash key version next)
    (hok : KeyOk requestHash after call next)
    (hnew : ∀ key row, after.committed key = some row →
      keys.committed key = some row ∨ Creates requestHash key row next)
    (hkeep : ∀ key row, Creates requestHash key row phase →
      Creates requestHash key row next)
    (hsource : ∀ key row, Creates requestHash key row next →
      Creates requestHash key row phase ∨ keys.committed key = none) :
    KeysInv requestHash after (Function.update calls call next) where
  held key owner version hown := by
    by_cases heq : owner = call
    · subst heq
      simpa using hheld key version hown
    · rw [Function.update_of_ne heq]
      exact hinv.held key owner version (hframe.given key owner version heq hown)
  ok other := by
    by_cases heq : other = call
    · subst heq
      simpa using hok
    · rw [Function.update_of_ne heq]
      exact (hinv.ok other).other hframe hstable heq
  creator key row hrow := by
    rcases hnew key row hrow with hold | hcreates
    · obtain ⟨creator, hcreator⟩ := hinv.creator key row hold
      by_cases heq : creator = call
      · subst heq
        rw [hphase] at hcreator
        exact ⟨creator, by simpa using hkeep key row hcreator⟩
      · exact ⟨creator, by rwa [Function.update_of_ne heq]⟩
    · exact ⟨call, by simpa using hcreates⟩
  single left right key row row' hleft hright := by
    -- somebody else's committed row is there, so the caller cannot have created one just now
    have hclash : ∀ other row row', other ≠ call → Creates requestHash key row (calls other) →
        Creates requestHash key row' next → other = call := by
      intro other row row' hne hother hcall
      rcases hsource key row' hcall with hbefore | hnone
      · exact hinv.single other call key row row' hother (by rwa [hphase])
      · rw [committed_of_creates (hinv.ok other) hother] at hnone
        cases hnone
    by_cases hl : left = call <;> by_cases hr : right = call
    · exact hl.trans hr.symm
    · rw [hl, Function.update_self] at hleft
      rw [Function.update_of_ne hr] at hright
      exact hl.trans (hclash right row' row hr hright hleft).symm
    · rw [Function.update_of_ne hl] at hleft
      rw [hr, Function.update_self] at hright
      exact (hclash left row row' hl hleft hright).trans hr.symm
    · rw [Function.update_of_ne hl] at hleft
      rw [Function.update_of_ne hr] at hright
      exact hinv.single left right key row row' hleft hright

/-- A step of the caller's transaction that commits nothing, in phases that have created nothing. -/
theorem KeysInv.work {after : Table Call Text (KeyRow Digest)} {phase next : Phase Digest}
    (hinv : KeysInv requestHash keys calls) (hphase : calls call = phase)
    (hframe : Frame call keys after)
    (hcommitted : ∀ key, after.committed key = keys.committed key)
    (hheld : ∀ key version, (after.cell key).held = some (call, version) →
      Holds requestHash key version next)
    (hok : KeyOk requestHash after call next)
    (hbefore : ∀ key row, ¬ Creates requestHash key row phase)
    (hnext : ∀ key row, ¬ Creates requestHash key row next) :
    KeysInv requestHash after (Function.update calls call next) := by
  apply hinv.move hphase hframe ?_ hheld hok ?_
    (fun key row hcreates => absurd hcreates (hbefore key row))
    (fun key row hcreates => absurd hcreates (hnext key row))
  · intro key row hrow
    rwa [hcommitted]
  · intro key row hrow
    exact .inl (by rwa [hcommitted] at hrow)

/-- A step that leaves the keys alone. -/
theorem KeysInv.goto {phase next : Phase Digest} (hinv : KeysInv requestHash keys calls)
    (hphase : calls call = phase)
    (hholds : ∀ key version, Holds requestHash key version phase →
      Holds requestHash key version next)
    (hok : KeyOk requestHash keys call next)
    (hcreates : ∀ key row, Creates requestHash key row next ↔ Creates requestHash key row phase) :
    KeysInv requestHash keys (Function.update calls call next) := by
  apply hinv.move hphase frame_refl (fun _ _ => id) ?_ hok (fun _ _ => .inl)
    (fun key row => (hcreates key row).mpr) (fun key row hnew => .inl ((hcreates key row).mp hnew))
  intro key version hheld
  have hold := hinv.held key call version hheld
  rw [hphase] at hold
  exact hholds key version hold

theorem KeysInv.not_held {phase : Phase Digest} (hinv : KeysInv requestHash keys calls)
    (hphase : calls call = phase) (hnone : ∀ key version, ¬ Holds requestHash key version phase)
    (key : Text) (version : Option (KeyRow Digest)) :
    (keys.cell key).held ≠ some (call, version) := by
  intro hheld
  have hholds := hinv.held key call version hheld
  rw [hphase] at hholds
  exact hnone key version hholds

theorem KeysInv.rollback {phase : Phase Digest} {request : Request} {failure : Failure}
    (hinv : KeysInv requestHash keys calls) (hphase : calls call = phase)
    (hopen : phase.isOpen = true)
    (hfailure : failure ≠ .keyReused) :
    KeysInv requestHash (keys.rollback call)
      (Function.update calls call (.threw request failure)) := by
  apply hinv.work hphase frame_rollback (fun key => committed_rollback)
  · intro key version hheld
    exact absurd rfl (held_rollback_iff.mp hheld).1
  · cases failure with
    | keyReused => exact absurd rfl hfailure
    | _ => trivial
  · intro key row hcreates
    -- an open transaction has committed nothing
    cases phase with
    | created | returned => cases hopen
    | _ => exact hcreates.elim
  · intro key row hcreates
    exact hcreates.elim

/-- The COMMIT of the row that links an order: it is the row that the call has created. -/
theorem KeysInv.commit {request : Request} {saved : Order} (hinv : KeysInv requestHash keys calls)
    (hphase : calls call = .committing request saved) :
    KeysInv requestHash (keys.commit call)
      (Function.update calls call (.created request saved)) := by
  have hok := hinv.ok call
  rw [hphase] at hok
  have hcell : keys.cell request.idempotencyKey =
      ⟨none, some (call, some ⟨requestHash request.dto, some saved.id⟩)⟩ := hok
  have hown := commit_of_held (congrArg Cell.held hcell)
  have hother : ∀ key, key ≠ request.idempotencyKey →
      (keys.commit call).cell key = keys.cell key := by
    intro key hne
    apply commit_of_not_held
    intro version hheld
    have hholds := hinv.held key call version hheld
    rw [hphase] at hholds
    exact hne hholds.1
  apply hinv.move hphase frame_commit
  · intro key row hrow
    by_cases heq : key = request.idempotencyKey
    · rw [heq, Table.committed, hcell] at hrow
      cases hrow
    · rwa [Table.committed, hother key heq]
  · intro key version hheld
    exact absurd rfl (held_commit_iff.mp hheld).1
  · exact congrArg Cell.committed hown
  · intro key row hrow
    by_cases heq : key = request.idempotencyKey
    · rw [heq, Table.committed, hown] at hrow
      exact .inr ⟨heq, (Option.some.inj hrow).symm⟩
    · rw [Table.committed, hother key heq] at hrow
      exact .inl hrow
  · intro key row hcreates
    exact hcreates.elim
  · intro key row hcreates
    refine .inr ?_
    rw [hcreates.1, Table.committed, hcell]

theorem findOne_id {state : State Digest} {orderId : OrderId} {order : Order}
    (hfind : findOne state orderId = some order) : order.id = orderId := by
  obtain ⟨entry, hentry, rfl⟩ := Option.map_eq_some_iff.mp hfind
  simpa using List.find?_some hentry

theorem KeysInv.step {before after : State Digest} {action : Action} {phase : Phase Digest}
    [DecidableEq Digest] (hinv : KeysInv requestHash before.keys before.calls)
    (hphase : before.calls call = phase) (hruns : Runs requestHash before action call phase after) :
    KeysInv requestHash after.keys after.calls := by
  have hok := hinv.ok call
  rw [hphase] at hok
  cases hruns with
  | began request haction =>
      exact hinv.goto hphase (fun _ _ hholds => hholds.elim) trivial fun _ _ => Iff.rfl
  | claimed request houtcome =>
      have hfree := hinv.not_held hphase fun _ _ hholds => hholds
      have habsent := insertOutcome_spec (hfree request.idempotencyKey)
      rw [houtcome] at habsent
      have hnone : before.keys.committed request.idempotencyKey = none := by
        rw [committed, habsent]
        rfl
      have hlock : before.keys.lockable call request.idempotencyKey = true := by
        rw [lockable_iff, habsent]
        intro owner version hheld
        cases hheld
      apply hinv.work hphase (frame_put hlock) (fun key => committed_put)
      · intro key version hheld
        rcases held_put_iff.mp hheld with ⟨rfl, -, rfl⟩ | ⟨-, hold⟩
        · exact ⟨rfl, rfl⟩
        · exact absurd hold (hfree key version)
      · change Table.cell _ _ = _
        rw [cell_put_self, hnone]
      · exact fun _ _ => id
      · exact fun _ _ => id
  | conflicted request houtcome =>
      have hrow := insertOutcome_spec
        (hinv.not_held hphase (fun _ _ hholds => hholds) request.idempotencyKey)
      rw [houtcome] at hrow
      exact hinv.goto hphase (fun _ _ hholds => hholds.elim) hrow fun _ _ => Iff.rfl
  | selected request =>
      obtain ⟨row, hrow⟩ := hok
      have hview := view_of_not_held
        (hinv.not_held hphase (fun _ _ hholds => hholds) request.idempotencyKey)
      exact hinv.goto hphase (fun _ _ hholds => hholds.elim) ⟨row, hview.trans hrow, hrow⟩
        fun _ _ => Iff.rfl
  | priced request rest rest' items items' totalCents totalCents' currency currency' =>
      exact hinv.goto hphase (fun _ _ hholds => hholds) hok fun _ _ => Iff.rfl
  | saved request items totalCents currency order hid howner =>
      exact hinv.goto hphase (fun _ _ hholds => hholds) hok fun _ _ => Iff.rfl
  | enqueued request order occurredAt now =>
      exact hinv.goto hphase (fun _ _ hholds => hholds) hok fun _ _ => Iff.rfl
  | linked request order keys hit hvisit =>
      have hcell : before.keys.cell request.idempotencyKey =
          ⟨none, some (call, some ⟨requestHash request.dto, none⟩)⟩ := hok
      have hview := view_of_held (congrArg Cell.held hcell)
      obtain ⟨hlock, hcases⟩ := visit_eq_some hvisit
      rw [hview] at hcases
      obtain ⟨row, hrow, -, -, rfl⟩ | ⟨_, _, hcond, _⟩ | ⟨hrow, _⟩ := hcases
      · cases hrow
        apply hinv.work hphase (frame_put hlock) (fun key => committed_put)
        · intro key version hheld
          rcases held_put_iff.mp hheld with ⟨rfl, -, rfl⟩ | ⟨hne, hold⟩
          · exact ⟨rfl, rfl⟩
          · have hholds := hinv.held key call version hold
            rw [hphase] at hholds
            exact absurd hholds.1 hne
        · change Table.cell _ _ = _
          rw [cell_put_self, committed, hcell]
        · exact fun _ _ => id
        · exact fun _ _ => id
      · cases hcond
      · cases hrow
  | committed request order => exact hinv.commit hphase
  | replayCommitted request existing =>
      have hcommitted : ∀ key, (before.keys.commit call).committed key =
          before.keys.committed key :=
        fun key => congrArg Cell.committed
          (commit_of_not_held (hinv.not_held hphase (fun _ _ hholds => hholds) key))
      apply hinv.work hphase frame_commit hcommitted
      · intro key version hheld
        exact absurd rfl (held_commit_iff.mp hheld).1
      · obtain ⟨row, hexisting, hrow⟩ := hok
        exact ⟨row, hexisting, by rwa [hcommitted]⟩
      · exact fun _ _ => id
      · exact fun _ _ => id
  | answered request order =>
      refine hinv.goto hphase (fun _ _ hholds => hholds.elim) ⟨order.id, hok, rfl⟩ ?_
      · intro key row
        constructor
        · rintro ⟨hkey, orderId, hrow, hid⟩
          exact ⟨hkey, by rw [hrow, decimal_nat_injective hid]⟩
        · rintro ⟨hkey, hrow⟩
          exact ⟨hkey, order.id, hrow, rfl⟩
  | mismatched request row hhash =>
      obtain ⟨row', hexisting, hrow⟩ := hok
      cases hexisting
      exact hinv.goto hphase (fun _ _ hholds => hholds.elim) ⟨row, hrow, hhash⟩ fun _ _ => Iff.rfl
  | replayed request row orderId order hhash hlink hfind =>
      obtain ⟨row', hexisting, hrow⟩ := hok
      cases hexisting
      have hid : order.id = orderId := findOne_id hfind
      refine hinv.goto hphase (fun _ _ hholds => hholds.elim) ⟨orderId, ?_, ?_⟩ fun _ _ => Iff.rfl
      · rw [hrow, ← hhash, ← hlink]
      · rw [← hid]
        rfl
  | lost request row missing hhash hmissing =>
      exact hinv.goto hphase (fun _ _ hholds => hholds.elim) trivial fun _ _ => Iff.rfl
  | failed request existing hhash =>
      exact hinv.goto hphase (fun _ _ hholds => hholds.elim) trivial fun _ _ => Iff.rfl
  | aborted phase request failure hopen hrequest hfailure =>
      refine hinv.rollback hphase hopen ?_
      rcases hfailure with rfl | ⟨productId, rfl⟩ <;> simp

end Marketplace.Orders
