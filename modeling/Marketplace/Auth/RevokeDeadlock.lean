import Marketplace.Auth.RefreshTokenReuse
import Marketplace.Lib.LockOrder

/-!
# Can revocations deadlock?

A replay holds the row of the token it presents and then runs `revokeFamily` on all rows of the
family; a `logout` runs the same UPDATE from nothing. The rows are taken in whatever order the scan
finds them, so two revocations of one family can wait for each other, and the database aborts one of
them. They cannot where no UPDATE starts crossed with one that is running: then there are no
circles, of any length.
-/

namespace Marketplace.RefreshToken

open ReadCommitted ReadCommitted.Table Transition Relation LockOrder

variable {Hash : Type} {hash : Token → Hash} {state after : State Hash} {call other : Call}
  {action : Action Hash} {familyId : FamilyId} {key : Hash}

/-- The call has the row lock. -/
def Holds (rows : Table Call Hash TokenRow) (call : Call) (key : Hash) : Prop :=
  ∃ version, (rows.cell key).held = some (call, version)

instance (rows : Table Call Hash TokenRow) (call : Call) (key : Hash) :
    Decidable (Holds rows call key) :=
  decidable_of_iff (((rows.cell key).held.map Prod.fst) = some call) (by simp [Holds])

/-- The rows that a running UPDATE has still to visit. -/
def Phase.todo : Phase Hash → List Hash
  | .updating _ _ _ _ todo _ => todo
  | _ => []

/-- The rows the next statement may ask for. -/
def Phase.wants (hash : Token → Hash) : Phase Hash → List Hash
  | .selecting token _ => [hash token]
  | phase => phase.todo

/-- The family whose rows a running UPDATE revokes. -/
def Phase.revoking : Phase Hash → Option FamilyId
  | .updating familyId _ _ _ _ _ => some familyId
  | _ => none

def WaitsFor (hash : Token → Hash) (state : State Hash) (waiter holder : Call) : Prop :=
  waiter ≠ holder ∧ ∃ key ∈ (state.calls waiter).wants hash, Holds state.rows holder key

instance [DecidableEq Hash] (state : State Hash) (waiter holder : Call) :
    Decidable (WaitsFor hash state waiter holder) := by
  unfold WaitsFor
  infer_instance

/-- No transactions wait for each other in a circle. -/
def DeadlockFree [DecidableEq Hash] (hash : Token → Hash) : Prop :=
  ∀ state, Reachable (step hash) State.init state →
    ∀ call, ¬ TransGen (WaitsFor hash state) call call

/-! ### The condition -/

/-- The UPDATE of `revokeFamily` that a step starts. -/
def State.starts (state : State Hash) : Action Hash → Option (Call × FamilyId)
  | .startRevoke call =>
      match state.calls call with
      | .reusing _ _ owner => some (call, owner.familyId)
      | _ => none
  | .revokeFamily call familyId => some (call, familyId)
  | _ => none

/-- A call about to revoke the rows `todo` and a running UPDATE: each needs a row that the other has
or needs, and these are two different rows. -/
def Crosses (state : State Hash) (call : Call) (todo : List Hash) (other : Call) : Prop :=
  ∃ key ∈ todo, ∃ key' ∈ (state.calls other).todo, key ≠ key' ∧
    ¬ Holds state.rows call key ∧ (Holds state.rows other key ∨ key ∈ (state.calls other).todo) ∧
    ¬ Holds state.rows other key' ∧ (Holds state.rows call key' ∨ key' ∈ todo)

instance [DecidableEq Hash] (state : State Hash) (call : Call) (todo : List Hash) (other : Call) :
    Decidable (Crosses state call todo other) := by
  unfold Crosses
  infer_instance

/-- The rows that the UPDATE of a `revokeFamily` would find now. -/
def State.toRevoke (state : State Hash) (call : Call) (familyId : FamilyId) : List Hash :=
  state.rows.scan call fun _ row => revocable familyId row

/-- No UPDATE starts crossed with a running one. -/
def StartsUncrossed (state : State Hash) (action : Action Hash) : Prop :=
  ∀ call familyId, state.starts action = some (call, familyId) →
    ∀ other, other ≠ call → ¬ Crosses state call (state.toRevoke call familyId) other

/-! ### What a step does to the locks -/

theorem holds_exclusive {rows : Table Call Hash TokenRow} (hcall : Holds rows call key)
    (hother : Holds rows other key) : call = other := by
  obtain ⟨version, hversion⟩ := hcall
  obtain ⟨version', hversion'⟩ := hother
  rw [hversion] at hversion'
  cases hversion'
  rfl

theorem holds_frame {rows rows' : Table Call Hash TokenRow} {mover : Call}
    (hframe : Frame mover rows rows') (hne : call ≠ mover) :
    Holds rows' call key ↔ Holds rows call key := by
  constructor
  · rintro ⟨version, hheld⟩
    exact ⟨version, hframe.given key call version hne hheld⟩
  · rintro ⟨version, hheld⟩
    exact ⟨version, by rw [hframe.kept key call version hne hheld, hheld]⟩

variable [DecidableEq Hash]

/-- A step takes and releases locks of its caller only. -/
theorem frame_step (hinv : LockInv hash state.rows state.calls)
    (hcaller : action.caller = some call) (hstep : step hash state action = some after) :
    Frame call state.rows after.rows := by
  cases action with
  | tick elapsed => cases hcaller
  | issue mover userId familyId token =>
      cases hcaller
      simp only [step, issue] at hstep
      split at hstep
      case isFalse => cases hstep
      rename_i hguard
      cases hstep
      refine (frame_put ?_).trans frame_commit
      exact lockable_iff.mpr fun owner version hheld => by simp [hguard.2.2, Cell.absent] at hheld
  | rotate mover token =>
      simp only [step, rotate] at hstep
      split at hstep
      case h_2 => cases hstep
      split at hstep <;> cases hstep <;> exact frame_refl
  | select mover =>
      rw [(lockInv_select hinv hstep).2]
      exact frame_refl
  | lock mover =>
      cases hcaller
      simp only [step, lock] at hstep
      split at hstep
      case h_2 => cases hstep
      split at hstep
      case isFalse => cases hstep
      rename_i hlock
      split at hstep <;> cases hstep
      exact frame_put hlock
  | markUsed mover =>
      cases hcaller
      simp only [step, markUsed] at hstep
      split at hstep
      case h_2 => cases hstep
      rename_i token now owner hphase
      split at hstep <;> cases hstep
      have hok := hinv.phase call
      rw [hphase] at hok
      obtain ⟨row, hcell, -⟩ := hok
      have hheld : (state.rows.cell (hash token)).held = some (call, some row) := by rw [hcell]
      exact frame_put (lockable_of_held hheld)
  | insert mover next =>
      cases hcaller
      simp only [step, insert] at hstep
      split at hstep
      case h_2 => cases hstep
      split at hstep
      case h_2 => cases hstep
      split at hstep
      case isFalse => cases hstep
      rename_i habsent
      cases hstep
      exact frame_put (lockable_iff.mpr fun owner version hheld => by
        simp [habsent, Cell.absent] at hheld)
  | startRevoke mover =>
      rw [(lockInv_startRevoke hinv hstep).2]
      exact frame_refl
  | revokeFamily mover familyId =>
      rw [(lockInv_revokeFamily hinv hstep).2]
      exact frame_refl
  | visit mover key =>
      cases hcaller
      simp only [step, visit] at hstep
      split at hstep
      case h_2 => cases hstep
      split at hstep
      case isFalse => cases hstep
      split at hstep <;> cases hstep
      rename_i rows hit hvisit
      exact frame_visit hvisit
  | commit mover =>
      cases hcaller
      simp only [step, commit] at hstep
      split at hstep <;> cases hstep <;> exact frame_commit
  | abort mover =>
      cases hcaller
      simp only [step, abort] at hstep
      split at hstep <;> cases hstep
      exact frame_rollback

/-- The rows a running UPDATE has locked or will lock. -/
def Locks (state : State Hash) (call : Call) (key : Hash) : Prop :=
  Holds state.rows call key ∨ key ∈ (state.calls call).todo

/-- A visit moves one row from the rows to do to the rows held. -/
theorem holds_visit (hinv : LockInv hash state.rows state.calls)
    (hstep : visit state call key = some after) :
    key ∈ (state.calls call).todo ∧
      (∀ row, Holds after.rows call row ↔ row = key ∨ Holds state.rows call row) ∧
      ∀ row, row ∈ (after.calls call).todo ↔ row ∈ (state.calls call).todo ∧ row ≠ key := by
  simp only [visit] at hstep
  split at hstep
  case h_2 => cases hstep
  rename_i familyId now caller snapshot todo affected hphase
  split at hstep
  case isFalse => cases hstep
  rename_i hkey
  split at hstep <;> cases hstep
  rename_i rows hit hvisit
  have hput : ∃ version, rows = state.rows.put call key version := by
    obtain ⟨row, hview⟩ := view_updating hinv hphase (mem_snapshot hinv hphase hkey)
    obtain ⟨-, ⟨_, -, -, -, hrows⟩ | ⟨_, -, -, -, hrows⟩ | ⟨hnone, -, -⟩⟩ := visit_eq_some hvisit
    · exact ⟨_, hrows⟩
    · exact ⟨_, hrows⟩
    · rw [hview] at hnone
      cases hnone
  obtain ⟨version, rfl⟩ := hput
  refine ⟨by rw [hphase]; exact hkey, fun row => ?_, fun row => ?_⟩
  · constructor
    · rintro ⟨held, hheld⟩
      rcases held_put_iff.mp hheld with ⟨heq, -, -⟩ | ⟨-, hold⟩
      · exact .inl heq
      · exact .inr ⟨held, hold⟩
    · intro hrow
      by_cases heq : row = key
      · exact ⟨version, held_put_iff.mpr (.inl ⟨heq, rfl, rfl⟩)⟩
      · obtain ⟨held, hheld⟩ := hrow.resolve_left heq
        exact ⟨held, held_put_iff.mpr (.inr ⟨heq, hheld⟩)⟩
  · simp [State.goto, hphase, Phase.todo]

/-- An UPDATE that is running after a step that starts none was running before, on the same rows. -/
theorem locks_step (hinv : LockInv hash state.rows state.calls)
    (hstarts : state.starts action = none) (hstep : step hash state action = some after)
    (hrunning : (after.calls call).revoking = some familyId) :
    (state.calls call).revoking = some familyId ∧
      (∀ key, Locks after call key ↔ Locks state call key) ∧
      ∀ key, Holds state.rows call key → Holds after.rows call key := by
  obtain ⟨hothers, hmoves⟩ := step_moves hinv hstep
  by_cases hcaller : action.caller = some call
  · have hmove := hmoves call hcaller
    generalize hbefore : state.calls call = before at hmove
    generalize hafter : after.calls call = now at hmove hrunning
    cases hmove with
    | startRevoke mover token now owner =>
        cases hcaller
        simp [State.starts, hbefore] at hstarts
    | revokeFamily mover familyId => simp [State.starts] at hstarts
    | visited mover row familyId now caller snapshot todo todo' affected affected' =>
        cases hcaller
        obtain ⟨hrow, hholds, htodo⟩ := holds_visit hinv hstep
        refine ⟨hrunning, fun key => ?_, fun key hkey => (hholds key).mpr (.inr hkey)⟩
        unfold Locks
        rw [hholds, htodo]
        constructor
        · rintro ((rfl | hheld) | ⟨hkey, -⟩)
          · exact .inr hrow
          · exact .inl hheld
          · exact .inr hkey
        · rintro (hheld | hkey)
          · exact .inl (.inr hheld)
          · by_cases heq : key = row
            · exact .inl (.inl heq)
            · exact .inr ⟨hkey, heq⟩
    | _ => cases hrunning
  · have hsame := hothers call hcaller
    have hholds : ∀ key, Holds after.rows call key ↔ Holds state.rows call key := by
      intro key
      cases hmover : action.caller with
      | none =>
          cases action <;> cases hmover
          cases hstep
          exact Iff.rfl
      | some mover =>
          refine holds_frame (frame_step hinv hmover hstep) ?_
          rintro rfl
          exact hcaller hmover
    refine ⟨hsame ▸ hrunning, fun key => ?_, fun key => (hholds key).mpr⟩
    rw [Locks, Locks, hholds, hsame]

/-- What the start of an UPDATE does: no lock changes hands, and the rows to do are fixed. -/
theorem starts_step (hstarts : state.starts action = some (call, familyId))
    (hstep : step hash state action = some after) :
    after.rows = state.rows ∧ (state.calls call).revoking = none ∧
      (after.calls call).revoking = some familyId ∧
      (after.calls call).todo = state.toRevoke call familyId ∧
      (∀ other, other ≠ call → after.calls other = state.calls other) ∧
      (state.calls call = .idle ∨ ∃ token now owner,
        state.calls call = .reusing token now owner ∧ owner.familyId = familyId) := by
  unfold State.starts at hstarts
  split at hstarts
  · rename_i mover
    split at hstarts
    case h_2 => cases hstarts
    rename_i token now owner hphase
    cases hstarts
    simp only [step, startRevoke, hphase] at hstep
    cases hstep
    have hmine := Function.update_self call
      (startUpdate state call owner.familyId now (some (token, owner))) state.calls
    exact ⟨rfl, by rw [hphase]; rfl, congrArg Phase.revoking hmine, congrArg Phase.todo hmine,
      fun other hne => Function.update_of_ne hne _ _, .inr ⟨token, now, owner, hphase, rfl⟩⟩
  · cases hstarts
    simp only [step, revokeFamily] at hstep
    split at hstep
    case h_2 => cases hstep
    rename_i hphase
    cases hstep
    have hmine := Function.update_self call (startUpdate state call familyId state.clock none)
      state.calls
    exact ⟨rfl, by rw [hphase]; rfl, congrArg Phase.revoking hmine, congrArg Phase.todo hmine,
      fun other hne => Function.update_of_ne hne _ _, .inl hphase⟩
  · cases hstarts

/-! ### The order in which the running UPDATEs started -/

/-- The rows that a batch has in its set are the rows of its family that were not revoked when it
started. -/
structure StartOrder (hash : Token → Hash) (state : State Hash) (rank : Call → Nat) (next : Nat) :
    Prop where
  reused : ∀ call token now owner, state.calls call = .reusing token now owner →
    ∃ row, state.rows.committed (hash token) = some row ∧ row.revokedAt = none
  family : ∀ call familyId key, (state.calls call).revoking = some familyId → Locks state call key →
    ∃ row, state.rows.committed key = some row ∧ row.familyId = familyId
  bound : ∀ call familyId, (state.calls call).revoking = some familyId → rank call < next
  inj : ∀ call other familyId otherId, (state.calls call).revoking = some familyId →
    (state.calls other).revoking = some otherId → rank call = rank other → call = other
  recent : ∀ first last familyId key row, (state.calls first).revoking = some familyId →
    (state.calls last).revoking = some familyId → rank first < rank last → Locks state first key →
    state.rows.committed key = some row → row.revokedAt = none → Locks state last key
  convex : ∀ first middle last familyId lastId key, (state.calls first).revoking = some familyId →
    (state.calls middle).revoking = some familyId → (state.calls last).revoking = some lastId →
    rank first < rank middle → rank middle < rank last → Locks state first key →
    Locks state last key → Locks state middle key

omit [DecidableEq Hash] in
theorem startOrder_init : StartOrder hash (State.init : State Hash) (fun _ => 0) 0 where
  reused _ _ _ _ hphase := by cases hphase
  family _ _ _ hrunning := by cases hrunning
  bound _ _ hrunning := by cases hrunning
  inj _ _ _ _ hrunning := by cases hrunning
  recent _ _ _ _ _ hrunning := by cases hrunning
  convex _ _ _ _ _ _ hrunning := by cases hrunning

/-- While a replay is between its row lock and its UPDATE, nobody revokes the row. -/
theorem reused_step (hinv : LockInv hash state.rows state.calls)
    (hreused : ∀ call token now owner, state.calls call = .reusing token now owner →
      ∃ row, state.rows.committed (hash token) = some row ∧ row.revokedAt = none)
    (hstep : step hash state action = some after) {token : Token} {now : Nat} {owner : Owner}
    (hphase : after.calls call = .reusing token now owner) :
    ∃ row, after.rows.committed (hash token) = some row ∧ row.revokedAt = none := by
  rcases step_phase hinv hstep hphase with hbefore | ⟨hcaller, hmove⟩
  · obtain ⟨row, hrow, hlive⟩ := hreused call token now owner hbefore
    have hok := hinv.phase call
    rw [hbefore] at hok
    obtain ⟨held, hcell, -⟩ := hok
    have hsame : after.rows.cell (hash token) = state.rows.cell (hash token) := by
      cases hmover : action.caller with
      | none =>
          cases action <;> cases hmover
          cases hstep
          rfl
      | some mover =>
          refine (frame_step hinv hmover hstep).kept _ call (some held) ?_ (by rw [hcell])
          rintro rfl
          -- the call itself would have left the phase
          have hmoves := (step_moves hinv hstep).2 call hmover
          rw [hbefore, hphase] at hmoves
          cases hmoves
    exact ⟨row, by rw [committed, hsame]; exact hrow, hlive⟩
  · generalize hbefore : state.calls call = before at hmove
    cases hmove with
    | lockedUsed mover token now row hrow hunrevoked hused =>
        cases hcaller
        obtain ⟨_, _, _, -, -, -, rfl⟩ := lockInv_lock hinv hstep
        exact ⟨row, committed_put.trans hrow, hunrevoked⟩

/-- A row that a step leaves unrevoked was there before, unrevoked. -/
theorem unrevoked_before (heffect : Effect hash state action after) {before row : TokenRow}
    (hbefore : state.rows.committed key = some before) (hrow : after.rows.committed key = some row)
    (hlive : row.revokedAt = none) : before.revokedAt = none := by
  obtain ⟨row', hrow', hevolves⟩ := heffect.grows key before hbefore
  rw [hrow] at hrow'
  cases hrow'
  cases hrevoked : before.revokedAt with
  | none => rfl
  | some time =>
      have := hevolves.revoked (by rw [hrevoked]; rfl)
      rw [hlive] at this
      cases this

/-- A step that starts no UPDATE keeps the order. -/
theorem StartOrder.keep {rank : Call → Nat} {next : Nat} (horder : StartOrder hash state rank next)
    (hinv : LockInv hash state.rows state.calls) (hstarts : state.starts action = none)
    (hstep : step hash state action = some after) : StartOrder hash after rank next where
  reused call token now owner hphase := reused_step hinv horder.reused hstep hphase
  family call familyId key hrunning hlocks := by
    obtain ⟨hbefore, hsame, -⟩ := locks_step hinv hstarts hstep hrunning
    obtain ⟨row, hrow, hfamily⟩ := horder.family call familyId key hbefore ((hsame key).mp hlocks)
    obtain ⟨row', hrow', hevolves⟩ := (step_effect hinv hstep).2.grows key row hrow
    exact ⟨row', hrow', (congrArg Owner.familyId hevolves.owner).trans hfamily⟩
  bound call familyId hrunning :=
    horder.bound call familyId (locks_step hinv hstarts hstep hrunning).1
  inj call other familyId otherId hrunning hother :=
    horder.inj call other familyId otherId (locks_step hinv hstarts hstep hrunning).1
      (locks_step hinv hstarts hstep hother).1
  recent first last familyId key row hfirst hlast hrank hlocks hrow hlive := by
    obtain ⟨hbefore, hsame, -⟩ := locks_step hinv hstarts hstep hfirst
    obtain ⟨hbeforeLast, hsameLast, -⟩ := locks_step hinv hstarts hstep hlast
    obtain ⟨old, hold, -⟩ := horder.family first familyId key hbefore ((hsame key).mp hlocks)
    exact (hsameLast key).mpr (horder.recent first last familyId key old hbefore hbeforeLast hrank
      ((hsame key).mp hlocks) hold (unrevoked_before (step_effect hinv hstep).2 hold hrow hlive))
  convex first middle last familyId lastId key hfirst hmiddle hlast hrank hrank' hlocks
    hlocks' := by
    obtain ⟨hbefore, hsame, -⟩ := locks_step hinv hstarts hstep hfirst
    obtain ⟨hbeforeMiddle, hsameMiddle, -⟩ := locks_step hinv hstarts hstep hmiddle
    obtain ⟨hbeforeLast, hsameLast, -⟩ := locks_step hinv hstarts hstep hlast
    exact (hsameMiddle key).mpr (horder.convex first middle last familyId lastId key hbefore
      hbeforeMiddle hbeforeLast hrank hrank' ((hsame key).mp hlocks) ((hsameLast key).mp hlocks'))

omit [DecidableEq Hash] in
/-- The set of an UPDATE that starts: exactly the unrevoked rows of its family. -/
theorem locks_start (hinv : LockInv hash state.rows state.calls)
    (hreused : ∀ call token now owner, state.calls call = .reusing token now owner →
      ∃ row, state.rows.committed (hash token) = some row ∧ row.revokedAt = none)
    (hphase : state.calls call = .idle ∨ ∃ token now owner,
      state.calls call = .reusing token now owner ∧ owner.familyId = familyId) :
    Holds state.rows call key ∨ key ∈ state.toRevoke call familyId ↔
      ∃ row, state.rows.committed key = some row ∧ row.familyId = familyId ∧
        row.revokedAt = none := by
  have hview : state.rows.view call key = state.rows.committed key := by
    rcases hphase with hidle | ⟨token, now, owner, hreusing, -⟩
    · refine hinv.view_eq fun version hheld => ?_
      rw [hidle] at hheld
      exact hheld
    · exact hinv.view_reusing hreusing key
  have hfound : key ∈ state.toRevoke call familyId ↔ ∃ row, state.rows.committed key = some row ∧
      row.familyId = familyId ∧ row.revokedAt = none := by
    rw [State.toRevoke, mem_scan, hview]
    simp [revocable]
  rw [hfound]
  refine ⟨fun hlocks => hlocks.elim ?_ id, .inr⟩
  rintro ⟨version, hheld⟩
  have hmine := hinv.held key call version hheld
  rcases hphase with hidle | ⟨token, now, owner, hreusing, hfamily⟩
  · rw [hidle] at hmine
    exact hmine.elim
  · rw [hreusing] at hmine
    obtain ⟨rfl, -⟩ := hmine
    obtain ⟨row, hrow, hlive⟩ := hreused call token now owner hreusing
    have hok := hinv.phase call
    rw [hreusing] at hok
    obtain ⟨row', hcell, howner⟩ := hok
    have hsame : state.rows.committed (hash token) = some row' := congrArg Cell.committed hcell
    rw [hrow] at hsame
    cases hsame
    exact ⟨row, hrow, (congrArg Owner.familyId howner).trans hfamily, hlive⟩

/-- An UPDATE that starts is the last in the order. -/
theorem StartOrder.start {rank : Call → Nat} {next : Nat} (horder : StartOrder hash state rank next)
    (hinv : LockInv hash state.rows state.calls)
    (hstarts : state.starts action = some (call, familyId))
    (hstep : step hash state action = some after) :
    StartOrder hash after (Function.update rank call next) (next + 1) := by
  obtain ⟨hrows, -, hrunning, htodo, hothers, hphase⟩ := starts_step hstarts hstep
  have hlocks : ∀ other key, other ≠ call → (Locks after other key ↔ Locks state other key) := by
    intro other key hne
    rw [Locks, Locks, hrows, hothers other hne]
  have hmine : ∀ key, Locks after call key ↔ ∃ row, state.rows.committed key = some row ∧
      row.familyId = familyId ∧ row.revokedAt = none := by
    intro key
    rw [Locks, hrows, htodo]
    exact locks_start hinv horder.reused hphase
  have hbound : ∀ other otherId, (after.calls other).revoking = some otherId → other ≠ call →
      rank other < next := by
    intro other otherId hother hne
    exact horder.bound other otherId (hothers other hne ▸ hother)
  have hrank : ∀ other, other ≠ call → Function.update rank call next other = rank other :=
    fun other hne => Function.update_of_ne hne _ _
  have hlast : Function.update rank call next call = next := Function.update_self call next rank
  -- whoever has a younger one above it is not the one that starts
  have hold : ∀ first last lastId, (after.calls last).revoking = some lastId →
      Function.update rank call next first < Function.update rank call next last →
        first ≠ call := by
    rintro first last lastId hrunningLast hlt rfl
    by_cases heq : last = first
    · exact absurd hlt (by rw [heq]; exact Nat.lt_irrefl _)
    · rw [hlast, hrank last heq] at hlt
      exact absurd (hbound last lastId hrunningLast heq) (Nat.lt_asymm hlt)
  refine ⟨?_, ?_, ?_, ?_, ?_, ?_⟩
  · intro other token now owner hreusing
    exact reused_step hinv horder.reused hstep hreusing
  · intro other otherId key hother hkey
    rw [hrows]
    by_cases heq : other = call
    · subst heq
      rw [hrunning] at hother
      cases hother
      obtain ⟨row, hrow, hfamily, -⟩ := (hmine key).mp hkey
      exact ⟨row, hrow, hfamily⟩
    · exact horder.family other otherId key (hothers other heq ▸ hother)
        ((hlocks other key heq).mp hkey)
  · intro other otherId hother
    by_cases heq : other = call
    · rw [heq, hlast]
      exact Nat.lt_succ_self next
    · rw [hrank other heq]
      exact Nat.lt_succ_of_lt (hbound other otherId hother heq)
  · intro left right leftId rightId hleft hright heq
    by_cases hl : left = call
    · by_cases hr : right = call
      · rw [hl, hr]
      · rw [hl, hlast, hrank right hr] at heq
        exact absurd (hbound right rightId hright hr) (by rw [heq]; exact Nat.lt_irrefl _)
    · by_cases hr : right = call
      · rw [hr, hlast, hrank left hl] at heq
        exact absurd (hbound left leftId hleft hl) (by rw [heq]; exact Nat.lt_irrefl _)
      · rw [hrank left hl, hrank right hr] at heq
        exact horder.inj left right leftId rightId (hothers left hl ▸ hleft)
          (hothers right hr ▸ hright) heq
  · intro first last otherId key row hfirst hrunningLast hlt hkey hrow hlive
    have hne := hold first last otherId hrunningLast hlt
    rw [hrows] at hrow
    have hbefore := (hlocks first key hne).mp hkey
    have hfirstBefore := hothers first hne ▸ hfirst
    by_cases heq : last = call
    · subst heq
      rw [hrunning] at hrunningLast
      cases hrunningLast
      obtain ⟨row', hrow', hfamily⟩ := horder.family first _ key hfirstBefore hbefore
      rw [hrow] at hrow'
      cases hrow'
      exact (hmine key).mpr ⟨row, hrow, hfamily, hlive⟩
    · rw [hrank first hne, hrank last heq] at hlt
      exact (hlocks last key heq).mpr (horder.recent first last otherId key row hfirstBefore
        (hothers last heq ▸ hrunningLast) hlt hbefore hrow hlive)
  · intro first middle last otherId lastId key hfirst hmiddle hrunningLast hlt hlt' hkey hkey'
    have hne := hold first middle otherId hmiddle hlt
    have hne' := hold middle last lastId hrunningLast hlt'
    have hbefore := (hlocks first key hne).mp hkey
    have hfirstBefore := hothers first hne ▸ hfirst
    have hmiddleBefore := hothers middle hne' ▸ hmiddle
    rw [hrank first hne, hrank middle hne'] at hlt
    refine (hlocks middle key hne').mpr ?_
    by_cases heq : last = call
    · subst heq
      obtain ⟨row, hrow, -, hlive⟩ := (hmine key).mp hkey'
      exact horder.recent first middle otherId key row hfirstBefore hmiddleBefore hlt hbefore hrow
        hlive
    · rw [hrank middle hne', hrank last heq] at hlt'
      exact horder.convex first middle last otherId lastId key hfirstBefore hmiddleBefore
        (hothers last heq ▸ hrunningLast) hlt hlt' hbefore ((hlocks last key heq).mp hkey')

/-! ### No two running UPDATEs are crossed -/

/-- The running UPDATEs as batches of locks. -/
def batches (state : State Hash) : Batches Call Hash where
  running call := ∃ familyId, (state.calls call).revoking = some familyId
  locks := Locks state
  holds := Holds state.rows

def Uncrossed (state : State Hash) : Prop :=
  ∀ left right, (batches state).running left → (batches state).running right → left ≠ right →
    ¬ (batches state).Crossed left right

omit [DecidableEq Hash] in
theorem crossed_symm (hcrossed : (batches state).Crossed call other) :
    (batches state).Crossed other call := by
  obtain ⟨key, key', hne, hneeds, hlocks, hneeds', hlocks'⟩ := hcrossed
  exact ⟨key', key, hne.symm, hneeds', hlocks', hneeds, hlocks⟩

omit [DecidableEq Hash] in
/-- After the start of an UPDATE, being crossed with it is what the condition rules out. -/
theorem crossed_start_iff (hrows : after.rows = state.rows)
    (htodo : (after.calls call).todo = state.toRevoke call familyId)
    (hother : after.calls other = state.calls other) :
    (batches after).Crossed call other ↔
      Crosses state call (state.toRevoke call familyId) other := by
  constructor
  · rintro ⟨key, key', hne, ⟨hlocks, hfree⟩, hseen, ⟨hlocks', hfree'⟩, hseen'⟩
    simp only [batches, Locks, hrows, htodo, hother] at hlocks hfree hseen hlocks' hfree' hseen'
    exact ⟨key, hlocks.resolve_left hfree, key', hlocks'.resolve_left hfree', hne, hfree, hseen,
      hfree', hseen'⟩
  · rintro ⟨key, hkey, key', hkey', hne, hfree, hseen, hfree', hseen'⟩
    refine ⟨key, key', hne, ⟨?_, ?_⟩, ?_, ⟨?_, ?_⟩, ?_⟩ <;>
      simp only [batches, Locks, hrows, htodo, hother]
    · exact .inr hkey
    · exact hfree
    · exact hseen
    · exact .inr hkey'
    · exact hfree'
    · exact hseen'

/-- The step lemma: under the condition no two running UPDATEs get crossed. -/
theorem Uncrossed.step (huncrossed : Uncrossed state) (hinv : LockInv hash state.rows state.calls)
    (hstart : StartsUncrossed state action)
    (hstep : RefreshToken.step hash state action = some after) :
    Uncrossed after := by
  intro left right ⟨leftId, hleft⟩ ⟨rightId, hright⟩ hne hcrossed
  cases hstarts : state.starts action with
  | none =>
      obtain ⟨hbefore, hlocks, hholds⟩ := locks_step hinv hstarts hstep hleft
      obtain ⟨hbefore', hlocks', hholds'⟩ := locks_step hinv hstarts hstep hright
      obtain ⟨key, key', hdiff, ⟨hkey, hfree⟩, hseen, ⟨hkey', hfree'⟩, hseen'⟩ := hcrossed
      exact huncrossed left right ⟨leftId, hbefore⟩ ⟨rightId, hbefore'⟩ hne
        ⟨key, key', hdiff, ⟨(hlocks key).mp hkey, fun hheld => hfree (hholds key hheld)⟩,
          (hlocks' key).mp hseen,
          ⟨(hlocks' key').mp hkey', fun hheld => hfree' (hholds' key' hheld)⟩,
          (hlocks key').mp hseen'⟩
  | some started =>
      obtain ⟨call, familyId⟩ := started
      obtain ⟨hrows, -, -, htodo, hothers, -⟩ := starts_step hstarts hstep
      have hcondition := hstart call familyId hstarts
      by_cases hl : left = call
      · subst hl
        exact hcondition right hne.symm
          ((crossed_start_iff hrows htodo (hothers right hne.symm)).mp hcrossed)
      · by_cases hr : right = call
        · subst hr
          exact hcondition left hne
            ((crossed_start_iff hrows htodo (hothers left hne)).mp (crossed_symm hcrossed))
        · have hsame : ∀ other key, other ≠ call →
              (Locks after other key ↔ Locks state other key) := by
            intro other key hother
            rw [Locks, Locks, hrows, hothers other hother]
          obtain ⟨key, key', hdiff, ⟨hkey, hfree⟩, hseen, ⟨hkey', hfree'⟩, hseen'⟩ := hcrossed
          simp only [batches, hrows] at hfree hfree'
          exact huncrossed left right ⟨leftId, hothers left hl ▸ hleft⟩
            ⟨rightId, hothers right hr ▸ hright⟩ hne
            ⟨key, key', hdiff, ⟨(hsame left key hl).mp hkey, hfree⟩, (hsame right key hr).mp hseen,
              ⟨(hsame right key' hr).mp hkey', hfree'⟩, (hsame left key' hl).mp hseen'⟩

omit [DecidableEq Hash] in
/-- Uncrossed UPDATEs are ordered batches. -/
theorem ordered_batches {rank : Call → Nat} {next : Nat} (horder : StartOrder hash state rank next)
    (huncrossed : Uncrossed state) : (batches state).Ordered rank where
  holds_locks _ _ _ hheld := .inl hheld
  exclusive _ _ _ hheld hheld' := holds_exclusive hheld hheld'
  rank_inj call other hrunning hother heq := by
    obtain ⟨familyId, hrunning⟩ := hrunning
    obtain ⟨otherId, hother⟩ := hother
    exact horder.inj call other familyId otherId hrunning hother heq
  convex first middle last hfirst hmiddle hlast hrank hrank' hshared key hkey hkey' := by
    obtain ⟨firstId, hfirst⟩ := hfirst
    obtain ⟨middleId, hmiddle⟩ := hmiddle
    obtain ⟨lastId, hlast⟩ := hlast
    obtain ⟨shared, hshared, hshared'⟩ := hshared
    -- a row belongs to one family, so a shared row makes it the same family
    obtain ⟨row, hrow, hfamily⟩ := horder.family first firstId shared hfirst hshared
    obtain ⟨row', hrow', hfamily'⟩ := horder.family middle middleId shared hmiddle hshared'
    rw [hrow] at hrow'
    cases hrow'
    have hsame : middleId = firstId := hfamily'.symm.trans hfamily
    exact horder.convex first middle last firstId lastId key hfirst (hsame ▸ hmiddle) hlast hrank
      hrank' hkey hkey'
  uncrossed := huncrossed

omit [DecidableEq Hash] in
/-- In a circle only running UPDATEs wait: whoever waits for its first row holds nothing. -/
theorem waits_of_waitsFor (hinv : LockInv hash state.rows state.calls) {waiter holder : Call}
    (hwaitedFor : ∃ before, WaitsFor hash state before waiter)
    (hwaits : WaitsFor hash state waiter holder) (hnext : ∃ next, WaitsFor hash state holder next) :
    (batches state).Waits waiter holder := by
  have hrunning : ∀ call before next, WaitsFor hash state before call →
      WaitsFor hash state call next → (∃ familyId, (state.calls call).revoking = some familyId) ∧
        (state.calls call).wants hash = (state.calls call).todo := by
    rintro call before next ⟨-, key, -, version, hheld⟩ ⟨-, key', hkey', -⟩
    have hmine := hinv.held key call version hheld
    cases hphase : state.calls call with
    | selecting token now =>
        rw [hphase] at hmine
        exact hmine.elim
    | updating familyId now caller snapshot todo affected => exact ⟨⟨familyId, rfl⟩, rfl⟩
    | _ =>
        rw [hphase] at hkey'
        cases hkey'
  obtain ⟨before, hbefore⟩ := hwaitedFor
  obtain ⟨next, hnext⟩ := hnext
  obtain ⟨hwaiter, hwants⟩ := hrunning waiter before holder hbefore hwaits
  obtain ⟨hholder, -⟩ := hrunning holder waiter next hwaits hnext
  obtain ⟨hne, key, hkey, hheld⟩ := hwaits
  rw [hwants] at hkey
  exact ⟨hwaiter, hholder, key, ⟨.inr hkey, fun hmine => hne (holds_exclusive hmine hheld)⟩, hheld⟩

/-- The run lemma: the running UPDATEs stay ordered and uncrossed. -/
theorem uncrossed_of_reach (hreach : Reach (step hash) StartsUncrossed State.init state) :
    (∃ rank next, StartOrder hash state rank next) ∧ Uncrossed state := by
  refine hreach.invariant
    (fun state => (∃ rank next, StartOrder hash state rank next) ∧ Uncrossed state)
    ⟨⟨_, _, startOrder_init⟩, ?_⟩ ?_
  · rintro left right ⟨familyId, hrunning⟩
    cases hrunning
  · rintro state action after hbefore ⟨⟨rank, next, horder⟩, huncrossed⟩ hstart hstep
    have hinv := lockInv_of_reach hbefore
    refine ⟨?_, huncrossed.step hinv hstart hstep⟩
    cases hstarts : state.starts action with
    | none => exact ⟨rank, next, horder.keep hinv hstarts hstep⟩
    | some started => exact ⟨_, _, horder.start hinv hstarts hstep⟩

/-- Where no UPDATE starts crossed with a running one, no transactions ever wait for each other in a
circle. -/
theorem no_deadlock (hreach : Reach (step hash) StartsUncrossed State.init state) (call : Call) :
    ¬ TransGen (WaitsFor hash state) call call := by
  have hinv := lockInv_of_reach hreach
  obtain ⟨⟨rank, next, horder⟩, huncrossed⟩ := uncrossed_of_reach hreach
  intro hcircle
  exact (ordered_batches horder huncrossed).no_circle call
    (circle_mono (fun _ _ => waits_of_waitsFor hinv) hcircle)

/-- The condition for runs of finitely many calls, where it can be checked. -/
def UncrossedAmong (calls : List Call) (state : State Hash) (action : Action Hash) : Prop :=
  action.caller.all (· ∈ calls) = true ∧
    match state.starts action with
    | some (call, familyId) => ∀ other ∈ calls, other ≠ call →
        ¬ Crosses state call (state.toRevoke call familyId) other
    | none => True

instance (calls : List Call) (state : State Hash) (action : Action Hash) :
    Decidable (UncrossedAmong calls state action) := by
  unfold UncrossedAmong
  split <;> infer_instance

/-- Calls that take no step are idle, so they cross nobody. -/
theorem reach_of_among {calls : List Call}
    (hreach : Reach (step hash) (UncrossedAmong calls) State.init state) :
    Reach (step hash) StartsUncrossed State.init state ∧
      ∀ call, call ∉ calls → state.calls call = .idle := by
  induction hreach with
  | refl => exact ⟨.refl, fun _ _ => rfl⟩
  | @tail before after action hbefore hok hstep ih =>
      obtain ⟨hrun, hidle⟩ := ih
      obtain ⟨hcaller, hstart⟩ := hok
      refine ⟨hrun.tail (fun call familyId hstarts other hne hcrosses => ?_) hstep,
        fun call hcall => ?_⟩
      · rw [hstarts] at hstart
        by_cases hmem : other ∈ calls
        · exact hstart other hmem hne hcrosses
        · obtain ⟨-, -, key', hkey', -⟩ := hcrosses
          rw [hidle other hmem] at hkey'
          cases hkey'
      · rw [(step_moves (lockInv_of_reach hrun) hstep).1 call, hidle call hcall]
        intro hmover
        rw [hmover] at hcaller
        exact hcall (by simpa using hcaller)

/-- Two logouts of a family with one row: the second waits for the first, and nobody for the
second. -/
def twoLogouts : List (Action Token) :=
  [.issue 1 7 0 (sampleToken 'A'), .revokeFamily 2 0, .revokeFamily 3 0, .visit 2 (sampleToken 'A')]

theorem no_deadlock_twoLogouts : ∃ state : State Token,
    Reach (step id) StartsUncrossed State.init state ∧ WaitsFor id state 3 2 ∧
      ∀ call, ¬ TransGen (WaitsFor id state) call call := by
  obtain ⟨state, hreach, hcheck⟩ : ∃ state : State Token,
      Reach (step id) (UncrossedAmong [1, 2, 3]) State.init state ∧
        Decidable.decide (WaitsFor id state 3 2) = true :=
    exists_reach_of_runWithin twoLogouts (by decide +kernel)
  have hrun := (reach_of_among hreach).1
  exact ⟨state, hrun, of_decide_eq_true hcheck, no_deadlock hrun⟩

/-! ### Crossed UPDATEs can deadlock -/

/-- Whoever holds a row has an open transaction, so the database may abort it and the row is
free. -/
theorem exists_lockable (hinv : LockInv hash state.rows state.calls) (call : Call)
    (hfree : ¬ Holds state.rows other key) :
    ∃ later, Reachable (step hash) state later ∧ LockInv hash later.rows later.calls ∧
      later.rows.lockable call key = true ∧ later.calls call = state.calls call ∧
      later.calls other = state.calls other ∧
      (∀ row, Holds later.rows call row ↔ Holds state.rows call row) ∧
      ∀ row, Holds later.rows other row ↔ Holds state.rows other row := by
  by_cases hlock : state.rows.lockable call key = true
  · exact ⟨state, .refl, hinv, hlock, rfl, rfl, fun _ => Iff.rfl, fun _ => Iff.rfl⟩
  · rw [lockable_iff] at hlock
    push Not at hlock
    obtain ⟨holder, version, hheld, hholder⟩ := hlock
    have hopen : (state.calls holder).isOpen = true := by
      have hmine := hinv.held key holder version hheld
      cases hphase : state.calls holder <;> rw [hphase] at hmine <;> first | rfl | exact hmine.elim
    have hother : other ≠ holder := by
      rintro rfl
      exact hfree ⟨version, hheld⟩
    have hstep : step hash state (.abort holder) =
        some { state.goto holder .threw with rows := state.rows.rollback holder } := if_pos hopen
    have hframe : Frame holder state.rows (state.rows.rollback holder) := frame_rollback
    refine ⟨_, Reachable.tail .refl hstep, (step_effect hinv hstep).1, ?_,
      Function.update_of_ne hholder.symm _ _, Function.update_of_ne hother _ _,
      fun row => holds_frame hframe hholder.symm, fun row => holds_frame hframe hother⟩
    refine lockable_iff.mpr fun owner held howner => ?_
    obtain ⟨hnot, hold⟩ := held_rollback_iff.mp howner
    rw [hheld] at hold
    cases hold
    exact absurd rfl hnot

/-- A running UPDATE can take a row of its set that its rival does not hold. -/
theorem exists_holds (hinv : LockInv hash state.rows state.calls) (hne : other ≠ call)
    (hcall : (state.calls call).revoking = some familyId) (hlocks : Locks state call key)
    (hfree : ¬ Holds state.rows other key) :
    ∃ later, Reachable (step hash) state later ∧ LockInv hash later.rows later.calls ∧
      (later.calls call).revoking = some familyId ∧ later.calls other = state.calls other ∧
      Holds later.rows call key ∧ (∀ row, Locks later call row ↔ Locks state call row) ∧
      (∀ row, row ≠ key → (Holds later.rows call row ↔ Holds state.rows call row)) ∧
      ∀ row, Holds later.rows other row ↔ Holds state.rows other row := by
  by_cases hheld : Holds state.rows call key
  · exact ⟨state, .refl, hinv, hcall, rfl, hheld, fun _ => Iff.rfl, fun _ _ => Iff.rfl,
      fun _ => Iff.rfl⟩
  · have htodo := hlocks.resolve_left hheld
    obtain ⟨middle, hreach, hinv', hlock, hsame, hsameOther, hholds, hholdsOther⟩ :=
      exists_lockable hinv call hfree
    rw [← hsame] at htodo hcall
    have hvisit : ∃ later, visit middle call key = some later := by
      cases hphase : middle.calls call with
      | updating id now caller snapshot todo affected =>
          rw [hphase] at htodo
          obtain ⟨row, hview⟩ := view_updating hinv' hphase (mem_snapshot hinv' hphase htodo)
          have hmem : key ∈ todo := htodo
          obtain ⟨result, hresult⟩ : ∃ result,
              middle.rows.visit call key (revocable id) (·.revoke now) = some result := by
            unfold Table.visit
            rw [if_pos hlock, hview]
            dsimp only
            split <;> exact ⟨_, rfl⟩
          simp only [visit, hphase, hmem, if_true, hresult]
          exact ⟨_, rfl⟩
      | _ =>
          rw [hphase] at hcall
          cases hcall
    obtain ⟨later, hlater⟩ := hvisit
    have hstep : step hash middle (.visit call key) = some later := hlater
    obtain ⟨-, hmine, -⟩ := holds_visit hinv' hlater
    have hrunning : (later.calls call).revoking = some familyId := by
      have hmove := (step_moves hinv' hstep).2 call rfl
      generalize middle.calls call = phase at hmove hcall
      generalize later.calls call = phase' at hmove
      cases hmove
      exact hcall
    obtain ⟨-, hset, -⟩ := locks_step hinv' rfl hstep hrunning
    refine ⟨later, hreach.tail hstep, (step_effect hinv' hstep).1, hrunning, ?_,
      (hmine key).mpr (.inl rfl), fun row => ?_, fun row hrow => ?_, fun row => ?_⟩
    · rw [(step_moves hinv' hstep).1 other fun heq => hne (Option.some.inj heq).symm, hsameOther]
    · rw [hset, Locks, Locks, hholds, hsame]
    · rw [hmine, hholds]
      exact or_iff_right hrow
    · rw [holds_frame (frame_step hinv' rfl hstep) hne, hholdsOther]

/-- From a state with two crossed UPDATEs some order of steps leads to a deadlock of the two. -/
theorem deadlock_of_crossed (hinv : LockInv hash state.rows state.calls) (hne : call ≠ other)
    (hcall : (batches state).running call) (hother : (batches state).running other)
    (hcrossed : (batches state).Crossed call other) :
    ∃ later, Reachable (step hash) state later ∧ WaitsFor hash later call other ∧
      WaitsFor hash later other call := by
  obtain ⟨familyId, hcall⟩ := hcall
  obtain ⟨otherId, hother⟩ := hother
  obtain ⟨key, key', hdiff, ⟨hkey, hfree⟩, hseen, ⟨hkey', hfree'⟩, hseen'⟩ := hcrossed
  obtain ⟨middle, hreach, hinv', hother', hsame, hheld, hlocks, hholds, hholdsCall⟩ :=
    exists_holds hinv hne hother hseen hfree
  have hfree'' : ¬ Holds middle.rows other key' := by
    rw [hholds key' hdiff.symm]
    exact hfree'
  have hset : ∀ row, Locks middle call row ↔ Locks state call row := by
    intro row
    rw [Locks, Locks, hholdsCall, hsame]
  obtain ⟨later, hreach', hinv'', hcall', hsame', hheld', hlocks', hholds', hholdsOther⟩ :=
    exists_holds hinv' hne.symm (hsame ▸ hcall) ((hset key').mpr hseen') hfree''
  have hwants : ∀ waiter row id, (later.calls waiter).revoking = some id → Locks later waiter row →
      ¬ Holds later.rows waiter row → row ∈ (later.calls waiter).wants hash := by
    intro waiter row id hrunning hrow hnot
    cases hphase : later.calls waiter with
    | updating =>
        have htodo := hrow.resolve_left hnot
        rw [hphase] at htodo
        exact htodo
    | _ =>
        rw [hphase] at hrunning
        cases hrunning
  have hotherHolds : Holds later.rows other key := (hholdsOther key).mpr hheld
  have hnotCall : ¬ Holds later.rows call key := fun hmine =>
    hne (holds_exclusive hmine hotherHolds)
  have hnotOther : ¬ Holds later.rows other key' := fun hmine =>
    hne (holds_exclusive hheld' hmine)
  refine ⟨later, hreach.trans hreach', ⟨hne, key, ?_, hotherHolds⟩, hne.symm, key', ?_, hheld'⟩
  · exact hwants call key familyId hcall' ((hlocks' key).mpr ((hset key).mpr hkey)) hnotCall
  · refine hwants other key' otherId (hsame' ▸ hother') ?_ hnotOther
    have hotherSet : Locks middle other key' := (hlocks key').mpr hkey'
    rw [Locks, hholdsOther, hsame']
    exact hotherSet

/-- The condition is exact: an UPDATE that starts against it can end in a deadlock. -/
theorem deadlock_of_start (hinv : LockInv hash state.rows state.calls)
    (hstep : step hash state action = some after) (hcrosses : ¬ StartsUncrossed state action) :
    ∃ later, Reachable (step hash) after later ∧
      ∃ call, TransGen (WaitsFor hash later) call call := by
  unfold StartsUncrossed at hcrosses
  push Not at hcrosses
  obtain ⟨call, familyId, hstarts, other, hne, hcrosses⟩ := hcrosses
  obtain ⟨hrows, -, hrunning, htodo, hothers, -⟩ := starts_step hstarts hstep
  have hother : (batches after).running other := by
    obtain ⟨-, -, key', hkey', -⟩ := hcrosses
    cases hphase : state.calls other with
    | updating id now caller snapshot todo affected =>
        exact ⟨id, by rw [hothers other hne, hphase]; rfl⟩
    | _ =>
        rw [hphase] at hkey'
        cases hkey'
  obtain ⟨later, hreach, hwaits, hwaits'⟩ := deadlock_of_crossed (step_effect hinv hstep).1 hne.symm
    ⟨familyId, hrunning⟩ hother ((crossed_start_iff hrows htodo (hothers other hne)).mpr hcrosses)
  exact ⟨later, hreach, call, .tail (.single hwaits) hwaits'⟩

/-- Two used tokens of one family are presented at the same time. -/
def twoReplays : List (Action Token) :=
  [.issue 1 7 0 (sampleToken 'A'),
    .rotate 2 (sampleToken 'A'), .select 2, .lock 2, .markUsed 2, .insert 2 (sampleToken 'B'),
    .commit 2,
    .rotate 3 (sampleToken 'B'), .select 3, .lock 3, .markUsed 3, .insert 3 (sampleToken 'C'),
    .commit 3,
    .rotate 4 (sampleToken 'A'), .select 4, .lock 4, .rotate 5 (sampleToken 'B'),
    .select 5, .lock 5,
    .startRevoke 4, .startRevoke 5, .visit 4 (sampleToken 'C')]

/-- Whichever rows the two UPDATEs visit first, each ends up waiting for the row of the other. -/
theorem twoReplays_deadlock : ¬ DeadlockFree (id : Token → Token) := by
  obtain ⟨state, hreach, hcheck⟩ : ∃ state : State Token, Reachable (step id) State.init state ∧
      Decidable.decide (WaitsFor id state 4 5 ∧ WaitsFor id state 5 4) = true :=
    exists_reach_of_runWithin twoReplays (by decide +kernel)
  obtain ⟨hwaits, hwaits'⟩ := of_decide_eq_true hcheck
  intro hfree
  exact hfree state hreach 4 (.tail (.single hwaits) hwaits')

end Marketplace.RefreshToken
