import Marketplace.Auth.RefreshTokenReuse

/-!
# Is revoking a family final?

`revokeFamily` revokes the rows it sees. A rotation that was in flight may commit a new row of the
family while the UPDATE waits for the old one; that row is not in the snapshot and stays live. Where
no row slips past a snapshot in this way, revocation is final.
-/

namespace Marketplace.RefreshToken

open ReadCommitted ReadCommitted.Table Transition

variable {Hash : Type} {hash : Token → Hash} {state after : State Hash} {call : Call}
  {action : Action Hash}

/-- Every committed row of the family has its `revoked_at`. -/
def FamilyRevoked (state : State Hash) (familyId : FamilyId) : Prop :=
  ∀ key row, state.rows.committed key = some row → row.familyId = familyId → row.revokedAt.isSome

/-- A `revokeFamily` commits only with a snapshot that holds every row it has to revoke: no row of
the family was committed while its UPDATE was running and is still live. -/
def SnapshotComplete [DecidableEq Hash] (state : State Hash) : Action Hash → Prop
  | .commit call =>
      match state.calls call with
      | .updating familyId _ _ snapshot [] _ =>
          ∀ key ∈ state.rows.matching (revocable familyId), key ∈ snapshot
      | _ => True
  | _ => True

instance [DecidableEq Hash] (state : State Hash) (action : Action Hash) :
    Decidable (SnapshotComplete state action) := by
  unfold SnapshotComplete
  split
  · split <;> infer_instance
  all_goals exact .isTrue trivial

/-- In terms of the table: between transactions a revoked family has no live row. -/
def RevocationFinal [DecidableEq Hash] (hash : Token → Hash) : Prop :=
  ∀ state, Reachable (step hash) State.init state → (∀ call, (state.calls call).isOpen = false) →
    ∀ familyId ∈ state.revokedFamilies, FamilyRevoked state familyId

/-- In terms of the calls: a rotation that starts after a revocation rejects every token of the
family. -/
def LateRotationsRejected [DecidableEq Hash] (hash : Token → Hash) : Prop :=
  ∀ state, Reachable (step hash) State.init state → ∀ familyId ∈ state.revokedFamilies,
    ∀ call, state.calls call = .idle → ∀ later, Reachable (step hash) state later →
      ∀ token row result, later.rows.committed (hash token) = some row → row.familyId = familyId →
        later.calls call = .answered token result → result.isRotated = false

variable [DecidableEq Hash]

theorem Effect.revokedFamilies_mono (heffect : Effect hash state action after) :
    ∀ familyId ∈ state.revokedFamilies, familyId ∈ after.revokedFamilies := by
  cases heffect with
  | unchanged hrows hfamilies hreturned hrevoked =>
      rw [hrevoked]
      exact fun _ => id
  | issued userId familyId token hfresh habsent hrows hfamilies hreturned hrevoked =>
      rw [hrevoked]
      exact fun _ => id
  | rotated token next row now owner hrow hlive habsent hused hnext hrows hfamilies hreturned
      hrevoked =>
      rw [hrevoked]
      exact fun _ => id
  | revoked call familyId now caller snapshot affected haction hphase hrows hsnapshot hfamilies
      hreturned hrevoked =>
      rw [hrevoked]
      exact fun _ => List.mem_cons_of_mem _

/-- No live row of a revoked family: the invariant that complete snapshots keep. -/
def RevokedInv (state : State Hash) : Prop :=
  ∀ familyId ∈ state.revokedFamilies, FamilyRevoked state familyId

theorem RevokedInv.step (hrevoked : RevokedInv state) (hinv : Inv hash state)
    (hcomplete : SnapshotComplete state action) (hstep : step hash state action = some after) :
    RevokedInv after := by
  intro familyId hfamily key row hrow hmember
  cases (step_effect hinv.locks hstep).2 with
  | unchanged hrows hfamilies hreturned hsame =>
      rw [hsame] at hfamily
      exact hrevoked familyId hfamily key row ((hrows key).symm.trans hrow) hmember
  | issued userId issuedId token hfresh habsent hrows hfamilies hreturned hsame =>
      rw [hsame] at hfamily
      rw [hrows] at hrow
      split at hrow
      · -- the new family is not a revoked one: its id was never in use
        cases hrow
        have heq : issuedId = familyId := hmember
        subst heq
        exact absurd (hinv.known.revoked issuedId hfamily) hfresh
      · exact hrevoked familyId hfamily key row hrow hmember
  | rotated token next old now owner hold hlive habsent hused hnext hrows hfamilies hreturned
      hsame =>
      rw [hsame] at hfamily
      -- the row that was rotated is live, so it is of another family
      have hother : old.familyId ≠ familyId := by
        intro heq
        have := hrevoked familyId hfamily _ old hold heq
        rw [hlive.unrevoked] at this
        cases this
      by_cases htoken : key = hash token
      · subst htoken
        rw [hused] at hrow
        cases hrow
        exact absurd hmember hother
      · by_cases hkey : key = hash next
        · subst hkey
          rw [hnext] at hrow
          cases hrow
          exact absurd hmember hother
        · exact hrevoked familyId hfamily key row ((hrows key htoken hkey).symm.trans hrow) hmember
  | revoked call revokedId now caller snapshot affected haction hphase hrows hsnapshot hfamilies
      hreturned hcons =>
      rw [hcons, List.mem_cons] at hfamily
      rcases hrows key with hsame | ⟨-, old, hold, -, hafter⟩
      · rw [hsame] at hrow
        rcases hfamily with rfl | hfamily
        · cases hlive : row.revokedAt with
          | some time => rfl
          | none =>
              subst haction
              simp only [SnapshotComplete, hphase] at hcomplete
              have hseen := hcomplete key
                (mem_matching.mpr ⟨row, hrow, by simp [revocable, hmember, hlive]⟩)
              obtain ⟨row', hrow', -, hrevokedAt⟩ := hsnapshot key hseen
              rw [hsame, hrow] at hrow'
              cases hrow'
              rw [hlive] at hrevokedAt
              cases hrevokedAt
        · exact hrevoked familyId hfamily key row hrow hmember
      · rw [hrow] at hafter
        cases hafter
        rfl

theorem RevokedInv.reach {later : State Hash} (hrevoked : RevokedInv state) (hinv : Inv hash state)
    (hreach : Reach (RefreshToken.step hash) SnapshotComplete state later) : RevokedInv later :=
  hreach.invariant RevokedInv hrevoked fun _ _ _ hbefore hrevoked hcomplete hstep =>
    hrevoked.step (hinv.reach hbefore) hcomplete hstep

theorem revokedFamilies_reach {ok : State Hash → Action Hash → Prop} {later : State Hash}
    {familyId : FamilyId} (hinv : Inv hash state) (hfamily : familyId ∈ state.revokedFamilies)
    (hreach : Reach (step hash) ok state later) : familyId ∈ later.revokedFamilies :=
  hreach.invariant (fun later => familyId ∈ later.revokedFamilies) hfamily
    fun _ _ _ hbefore hfamily _ hstep =>
      (step_effect (hinv.reach hbefore).locks hstep).2.revokedFamilies_mono familyId hfamily

/-- A rotation of a revoked family cannot be between its row lock and its COMMIT, so none
returns. -/
theorem not_rotated_step {familyId : FamilyId} (hrevoked : RevokedInv state)
    (hinv : Inv hash state) (hfamily : familyId ∈ state.revokedFamilies)
    (hstep : step hash state action = some after)
    (hold : ∀ token owner next, state.calls call = .answered token (.rotated owner next) →
      owner.familyId ≠ familyId) :
    ∀ token owner next, after.calls call = .answered token (.rotated owner next) →
      owner.familyId ≠ familyId := by
  intro token owner next hphase
  rcases step_phase hinv.locks hstep hphase with hbefore | ⟨-, hmoves⟩
  · exact hold token owner next hbefore
  · generalize hbefore : state.calls call = phase at hmoves
    cases hmoves with
    | rotated mover token next now owner =>
        have hok := hinv.locks.phase call
        rw [hbefore] at hok
        obtain ⟨row, hcell, hlive, -⟩ := hok
        intro hmember
        have hrevokedAt := hrevoked familyId hfamily _ row (congrArg Cell.committed hcell)
          ((congrArg Owner.familyId hlive.owner).trans hmember)
        rw [hlive.unrevoked] at hrevokedAt
        cases hrevokedAt

/-- A call that starts after the revocation answers no token of the family with a rotation. -/
theorem late_rotation_rejected {familyId : FamilyId} {later : State Hash} {token : Token}
    {row : TokenRow} {result : RotationResult} (hrevoked : RevokedInv state) (hinv : Inv hash state)
    (hfamily : familyId ∈ state.revokedFamilies) (hidle : state.calls call = .idle)
    (hlater : Reach (step hash) SnapshotComplete state later)
    (hrow : later.rows.committed (hash token) = some row) (hmember : row.familyId = familyId)
    (hanswered : later.calls call = .answered token result) : result.isRotated = false := by
  have hnever := hlater.invariant
    (fun later => ∀ token owner next, later.calls call = .answered token (.rotated owner next) →
      owner.familyId ≠ familyId)
    (fun token owner next hphase => by rw [hidle] at hphase; cases hphase)
    fun _ _ _ hbefore hnever _ hstep => not_rotated_step (hrevoked.reach hinv hbefore)
      (hinv.reach hbefore) (revokedFamilies_reach hinv hfamily hbefore) hstep hnever
  cases result with
  | rejected reason owner revokedRows => rfl
  | rotated owner next =>
      have hok := (hinv.reach hlater).locks.phase call
      rw [hanswered] at hok
      obtain ⟨row', hrow', howner, -⟩ := hok
      rw [hrow] at hrow'
      cases hrow'
      exact absurd ((congrArg Owner.familyId howner).symm.trans hmember)
        (hnever token owner next hanswered)

omit [DecidableEq Hash] in
theorem revokedInv_init : RevokedInv (State.init : State Hash) :=
  fun _ hfamily => by cases hfamily

/-- Where every `revokeFamily` commits with a complete snapshot, it is final: no row of the family
is live, and a rotation that starts later rejects every token of the family. -/
theorem revokeFamily_final (hreach : Reach (step hash) SnapshotComplete State.init state) :
    (∀ familyId ∈ state.revokedFamilies, FamilyRevoked state familyId) ∧
    ∀ familyId ∈ state.revokedFamilies, ∀ call, state.calls call = .idle → ∀ later,
      Reach (step hash) SnapshotComplete state later → ∀ token row result,
        later.rows.committed (hash token) = some row → row.familyId = familyId →
        later.calls call = .answered token result → result.isRotated = false := by
  have hinv := inv_init.reach hreach
  have hrevoked := revokedInv_init.reach inv_init hreach
  refine ⟨hrevoked, ?_⟩
  intro familyId hfamily call hidle later hlater token row result hrow hmember hanswered
  exact late_rotation_rejected hrevoked hinv hfamily hidle hlater hrow hmember hanswered

/-- The same two calls one after the other. -/
def quietLogout : List (Action Token) :=
  [.issue 1 7 0 (sampleToken 'A'),
    .rotate 2 (sampleToken 'A'), .select 2, .lock 2, .markUsed 2, .insert 2 (sampleToken 'B'),
    .commit 2,
    .revokeFamily 3 0, .visit 3 (sampleToken 'A'), .visit 3 (sampleToken 'B'), .commit 3]

theorem revokeFamily_final_quietLogout :
    ∃ state : State Token, Reach (step id) SnapshotComplete State.init state ∧
      state.calls 3 = .revoked 0 2 ∧ (∀ familyId ∈ state.revokedFamilies,
        FamilyRevoked state familyId) := by
  obtain ⟨state, hreach, hanswer⟩ : ∃ state : State Token,
      Reach (step id) SnapshotComplete State.init state ∧
        Decidable.decide (state.calls 3 = .revoked 0 2) = true :=
    exists_reach_of_runWithin quietLogout (by decide +kernel)
  exact ⟨state, hreach, of_decide_eq_true hanswer, (revokeFamily_final hreach).1⟩

/-- Every running UPDATE has all rows of its family in its snapshot. -/
def SnapshotsComplete (state : State Hash) : Prop :=
  ∀ call familyId now caller snapshot todo affected,
    state.calls call = .updating familyId now caller snapshot todo affected →
    ∀ key row, state.rows.committed key = some row → row.familyId = familyId → key ∈ snapshot

theorem SnapshotsComplete.snapshotComplete (hcomplete : SnapshotsComplete state)
    (action : Action Hash) : SnapshotComplete state action := by
  unfold SnapshotComplete
  split
  case h_2 => trivial
  split
  case h_2 => trivial
  rename_i familyId now caller snapshot affected hphase
  intro key hkey
  obtain ⟨row, hrow, hrevocable⟩ := mem_matching.mp hkey
  simp only [revocable, Bool.and_eq_true, decide_eq_true_eq] at hrevocable
  exact hcomplete _ _ _ _ _ _ _ hphase key row hrow hrevocable.1

/-- Transactions that do not overlap keep the snapshots complete. -/
theorem SnapshotsComplete.step (hcomplete : SnapshotsComplete state) (hinv : Inv hash state)
    (halone : ∀ call, (state.calls call).isOpen = true → action.caller ≠ none →
      action.caller = some call)
    (hstep : step hash state action = some after) : SnapshotsComplete after := by
  obtain ⟨hothers, hmoves⟩ := step_moves hinv.locks hstep
  intro call familyId now caller snapshot todo affected hphase key row hrow hmember
  by_cases hcaller : action.caller = some call
  · have hmove := hmoves call hcaller
    rw [hphase] at hmove
    generalize hbefore : state.calls call = phase at hmove
    cases hmove with
    | startRevoke mover token now owner =>
        cases hcaller
        rw [(lockInv_startRevoke hinv.locks hstep).2] at hrow
        refine mem_scan.mpr ⟨row, ?_, decide_eq_true hmember⟩
        rw [hinv.locks.view_reusing hbefore]
        exact hrow
    | revokeFamily mover familyId =>
        cases hcaller
        rw [(lockInv_revokeFamily hinv.locks hstep).2] at hrow
        refine mem_scan.mpr ⟨row, ?_, decide_eq_true hmember⟩
        rw [hinv.locks.view_eq fun version hheld => by rw [hbefore] at hheld; exact hheld]
        exact hrow
    | visited mover target familyId now caller snapshot todo todo' affected affected' =>
        cases hcaller
        rw [(lockInv_visit hinv.locks hstep).2.2] at hrow
        exact hcomplete _ _ _ _ _ _ _ hbefore key row hrow hmember
  · rw [hothers call hcaller] at hphase
    cases hmover : action.caller with
    | some mover =>
        have hopen : (state.calls call).isOpen = true := by
          rw [hphase]
          rfl
        exact absurd (halone call hopen (by rw [hmover]; exact Option.some_ne_none mover)) hcaller
    | none =>
        cases action <;> cases hmover
        cases hstep
        exact hcomplete _ _ _ _ _ _ _ hphase key row hrow hmember

/-- A row outside the snapshot is exactly what goes wrong: it is live after the COMMIT. -/
theorem live_of_snapshot_incomplete (hinv : Inv hash state)
    (hstep : step hash state action = some after) (hincomplete : ¬ SnapshotComplete state action) :
    ∃ familyId ∈ after.revokedFamilies, ¬ FamilyRevoked after familyId := by
  unfold SnapshotComplete at hincomplete
  split at hincomplete
  case h_2 => exact absurd trivial hincomplete
  rename_i call
  split at hincomplete
  case h_2 => exact absurd trivial hincomplete
  rename_i familyId now caller snapshot affected hphase
  push Not at hincomplete
  obtain ⟨key, hmatching, hunseen⟩ := hincomplete
  obtain ⟨row, hrow, hrevocable⟩ := mem_matching.mp hmatching
  simp only [revocable, Bool.and_eq_true, decide_eq_true_eq,
    Option.isNone_iff_eq_none] at hrevocable
  obtain ⟨hrows, hfamily⟩ : after.rows = state.rows.commit call ∧
      after.revokedFamilies = familyId :: state.revokedFamilies := by
    simp only [step, commit, hphase] at hstep
    cases caller <;> cases hstep <;> exact ⟨rfl, rfl⟩
  refine ⟨familyId, by rw [hfamily]; exact List.mem_cons_self, fun hall => ?_⟩
  have hafter : after.rows.committed key = some row := by
    rw [hrows]
    rcases (commit_updating hinv.locks hphase).1 key with hsame | ⟨hseen, -⟩
    · exact hsame.trans hrow
    · exact absurd hseen hunseen
  have hrevokedAt := hall key row hafter hrevocable.1
  rw [hrevocable.2] at hrevokedAt
  cases hrevokedAt

/-- A rotation commits its new row while the UPDATE of a logout waits for the old one. -/
def logoutRace : List (Action Token) :=
  [.issue 1 7 0 (sampleToken 'A'),
    .rotate 2 (sampleToken 'A'), .select 2, .lock 2, .markUsed 2, .insert 2 (sampleToken 'B'),
    .revokeFamily 3 0, .commit 2, .visit 3 (sampleToken 'A'), .commit 3]

/-- After the logout the new row is rotated like any other. -/
def survivorRotation : List (Action Token) :=
  [.rotate 4 (sampleToken 'B'), .select 4, .lock 4, .markUsed 4, .insert 4 (sampleToken 'C'),
    .commit 4]

def rotatedSurvivor (state : State Token) : Bool :=
  state.calls 4 = .answered (sampleToken 'B') (.rotated ⟨7, 0⟩ (sampleToken 'C')) &&
    (state.rows.committed (sampleToken 'B')).any (inFamily 0)

def leavesSurvivor (state : State Token) : Bool :=
  0 ∈ state.revokedFamilies && state.calls 4 = .idle &&
    [1, 2, 3].all (fun call => !(state.calls call).isOpen) &&
    (state.rows.committed (sampleToken 'B')).any (revocable 0) &&
    (run (step id) state survivorRotation).any rotatedSurvivor

theorem logoutRace_not_final :
    ¬ RevocationFinal (id : Token → Token) ∧ ¬ LateRotationsRejected (id : Token → Token) := by
  obtain ⟨state, hrun, hcheck⟩ : ∃ state : State Token,
      run (step id) State.init logoutRace = some state ∧ leavesSurvivor state = true :=
    (Option.any_eq_true _ _).mp (by decide +kernel)
  have hreach : Reachable (step id) State.init state := reach_of_runWithin hrun
  simp only [leavesSurvivor, Bool.and_eq_true, decide_eq_true_eq, List.all_eq_true] at hcheck
  obtain ⟨⟨⟨⟨hfamily, hidle⟩, hclosed⟩, hrow⟩, hlate⟩ := hcheck
  constructor
  · intro hfinal
    obtain ⟨row, hrow, hrevocable⟩ := (Option.any_eq_true _ _).mp hrow
    have hquiet : ∀ call, (state.calls call).isOpen = false := by
      intro call
      by_cases hmem : call ∈ [1, 2, 3]
      · simpa using hclosed call hmem
      · have hsame : state.calls call = .idle := calls_of_runWithin lockInv_init hrun (by
          simp only [List.mem_cons, List.not_mem_nil, or_false, not_or] at hmem
          obtain ⟨hone, htwo, hthree⟩ := hmem
          simp [logoutRace, Action.caller, Ne.symm hone, Ne.symm htwo, Ne.symm hthree])
        rw [hsame]
        rfl
    simp only [revocable, Bool.and_eq_true, decide_eq_true_eq, Option.isNone_iff_eq_none]
      at hrevocable
    have hrevokedAt := hfinal state hreach hquiet 0 hfamily _ row hrow hrevocable.1
    rw [hrevocable.2] at hrevokedAt
    cases hrevokedAt
  · intro hrejected
    obtain ⟨later, hlater, hsurvivor⟩ := exists_reach_of_runWithin survivorRotation hlate
    simp only [rotatedSurvivor, Bool.and_eq_true, decide_eq_true_eq] at hsurvivor
    obtain ⟨row, hrow, hmember⟩ := (Option.any_eq_true _ _).mp hsurvivor.2
    have := hrejected state hreach 0 hfamily 4 hidle later hlater _ row _ hrow
      (of_decide_eq_true hmember) hsurvivor.1
    cases this

end Marketplace.RefreshToken
