import Marketplace.Auth.RefreshToken

/-!
# What the row locks of a token family guarantee

The committed rows change in three ways only: a family is issued, a live row is rotated, the rows a
`revokeFamily` saw are revoked. `step_effect` proves that the statement-by-statement model does
nothing else, whatever the interleaving; the invariants of the families are then proved from the
three effects and never look at a statement again.
-/

namespace Marketplace.RefreshToken

open ReadCommitted ReadCommitted.Table Transition

variable {Hash : Type} {hash : Token → Hash} {rows : Table Call Hash TokenRow}
  {calls : Call → Phase Hash} {state after : State Hash} {call : Call}

/-- A later version of the same row: stamps are set and never cleared, the rest is constant. -/
structure TokenRow.Evolves (row row' : TokenRow) : Prop where
  owner : row'.owner = row.owner
  createdAt : row'.createdAt = row.createdAt
  expiresAt : row'.expiresAt = row.expiresAt
  familyStartedAt : row'.familyStartedAt = row.familyStartedAt
  used : row.usedAt.isSome → row'.usedAt.isSome
  revoked : row.revokedAt.isSome → row'.revokedAt.isSome

theorem TokenRow.Evolves.refl (row : TokenRow) : row.Evolves row :=
  ⟨rfl, rfl, rfl, rfl, id, id⟩

theorem TokenRow.evolves_use (row : TokenRow) (now : Nat) : row.Evolves (row.use now) :=
  ⟨rfl, rfl, rfl, rfl, fun _ => rfl, id⟩

theorem TokenRow.evolves_revoke (row : TokenRow) (now : Nat) : row.Evolves (row.revoke now) :=
  ⟨rfl, rfl, rfl, rfl, id, fun _ => rfl⟩

def Grows (before after : Table Call Hash TokenRow) : Prop :=
  ∀ key row, before.committed key = some row →
    ∃ row', after.committed key = some row' ∧ row.Evolves row'

theorem grows_of_committed {before after : Table Call Hash TokenRow}
    (hsame : ∀ key, after.committed key = before.committed key) : Grows before after :=
  fun key row hrow => ⟨row, (hsame key).trans hrow, .refl row⟩

/-- A row that the rotation of `owner` may still use. -/
structure TokenRow.Live (row : TokenRow) (owner : Owner) : Prop where
  unused : row.usedAt = none
  unrevoked : row.revokedAt = none
  owner : row.owner = owner

/-- The version a call in a given phase holds of a row. -/
def Held (hash : Token → Hash) (rows : Table Call Hash TokenRow) (phase : Phase Hash) (key : Hash)
    (version : Option TokenRow) : Prop :=
  match phase with
  | .rejecting token _ _ | .reusing token _ _ | .rotating token _ _ =>
      key = hash token ∧ version = rows.committed key
  | .inserting token now _ => key = hash token ∧ version = (rows.committed key).map (·.use now)
  | .inserted token next now _ =>
      (key = hash token ∧ version = (rows.committed key).map (·.use now)) ∨ key = hash next
  | .updating familyId now _ snapshot _ _ => ∃ row, rows.committed key = some row ∧
      (version = some row ∨
        (key ∈ snapshot ∧ row.familyId = familyId ∧ version = some (row.revoke now)))
  | _ => False

/-- What the table says about the rows a call in a given phase works on. -/
def PhaseOk (hash : Token → Hash) (rows : Table Call Hash TokenRow) (call : Call) :
    Phase Hash → Prop
  | .selecting token _ => ∃ row, rows.committed (hash token) = some row
  | .reusing token _ owner => ∃ row, rows.cell (hash token) = ⟨some row, some (call, some row)⟩ ∧
      row.owner = owner
  | .rotating token _ owner => ∃ row, rows.cell (hash token) = ⟨some row, some (call, some row)⟩ ∧
      row.Live owner
  | .inserting token now owner => ∃ row,
      rows.cell (hash token) = ⟨some row, some (call, some (row.use now))⟩ ∧ row.Live owner
  | .inserted token next now owner => ∃ row,
      rows.cell (hash token) = ⟨some row, some (call, some (row.use now))⟩ ∧ row.Live owner ∧
      rows.cell (hash next) = ⟨none, some (call, some (row.successor now))⟩
  | .updating familyId now caller snapshot todo _ =>
      (∀ key ∈ snapshot, ∃ row, rows.committed key = some row ∧ row.familyId = familyId ∧
        (key ∈ todo ∨ row.revokedAt.isSome ∨
          (rows.cell key).held = some (call, some (row.revoke now)))) ∧
      (∀ key ∈ todo, key ∈ snapshot) ∧
      ∀ token owner, caller = some (token, owner) → owner.familyId = familyId ∧
        ∃ row, rows.committed (hash token) = some row ∧ row.owner = owner
  | .answered token (.rotated owner _) => ∃ row,
      rows.committed (hash token) = some row ∧ row.owner = owner ∧ row.usedAt.isSome
  | _ => True

structure LockInv (hash : Token → Hash) (rows : Table Call Hash TokenRow)
    (calls : Call → Phase Hash) : Prop where
  held : ∀ key call version, (rows.cell key).held = some (call, version) →
    Held hash rows (calls call) key version
  phase : ∀ call, PhaseOk hash rows call (calls call)

theorem lockInv_init :
    LockInv hash (State.init : State Hash).rows (State.init : State Hash).calls :=
  ⟨fun _ _ _ hheld => by simp [State.init, Cell.absent] at hheld, fun _ => trivial⟩

/-- What a phase knows survives a step of somebody else. -/
theorem PhaseOk.other {after : Table Call Hash TokenRow} {mover : Call} {phase : Phase Hash}
    (hframe : Frame mover rows after) (hgrows : Grows rows after) (hne : call ≠ mover)
    (hphase : PhaseOk hash rows call phase) : PhaseOk hash after call phase := by
  have hcell : ∀ {key : Hash} {committed version : Option TokenRow},
      rows.cell key = ⟨committed, some (call, version)⟩ →
      after.cell key = ⟨committed, some (call, version)⟩ := fun hcell => by
    rw [hframe.kept _ call _ hne (by rw [hcell])]
    exact hcell
  have howned : ∀ token owner, (∃ row, rows.committed (hash token) = some row ∧ row.owner = owner) →
      ∃ row, after.committed (hash token) = some row ∧ row.owner = owner := by
    rintro token owner ⟨row, hrow, howner⟩
    obtain ⟨row', hrow', hevolves⟩ := hgrows _ row hrow
    exact ⟨row', hrow', hevolves.owner.trans howner⟩
  cases phase with
  | selecting token now =>
      obtain ⟨row, hrow⟩ := hphase
      obtain ⟨row', hrow', -⟩ := hgrows _ row hrow
      exact ⟨row', hrow'⟩
  | reusing token now owner =>
      obtain ⟨row, hheld, howner⟩ := hphase
      exact ⟨row, hcell hheld, howner⟩
  | rotating token now owner =>
      obtain ⟨row, hheld, hlive⟩ := hphase
      exact ⟨row, hcell hheld, hlive⟩
  | inserting token now owner =>
      obtain ⟨row, hheld, hlive⟩ := hphase
      exact ⟨row, hcell hheld, hlive⟩
  | inserted token next now owner =>
      obtain ⟨row, hheld, hlive, hnext⟩ := hphase
      exact ⟨row, hcell hheld, hlive, hcell hnext⟩
  | updating familyId now caller snapshot todo affected =>
      refine ⟨fun key hkey => ?_, hphase.2.1, fun token owner hcaller =>
        ⟨(hphase.2.2 token owner hcaller).1, howned token owner (hphase.2.2 token owner hcaller).2⟩⟩
      obtain ⟨row, hrow, hfamily, hdone⟩ := hphase.1 key hkey
      by_cases hheld : (rows.cell key).held = some (call, some (row.revoke now))
      · have hsame := hframe.kept key call _ hne hheld
        exact ⟨row, by rw [committed, hsame]; exact hrow, hfamily,
          .inr (.inr (by rw [hsame]; exact hheld))⟩
      · obtain ⟨row', hrow', hevolves⟩ := hgrows key row hrow
        refine ⟨row', hrow', (congrArg Owner.familyId hevolves.owner).trans hfamily, ?_⟩
        rcases hdone with htodo | hrevoked | habsurd
        · exact .inl htodo
        · exact .inr (.inl (hevolves.revoked hrevoked))
        · exact absurd habsurd hheld
  | answered token result =>
      cases result with
      | rotated owner next =>
          obtain ⟨row, hrow, howner, hused⟩ := hphase
          obtain ⟨row', hrow', hevolves⟩ := hgrows _ row hrow
          exact ⟨row', hrow', hevolves.owner.trans howner, hevolves.used hused⟩
      | rejected reason owner revokedRows => trivial
  | _ => trivial

/-- The step lemma of the locks: only the caller's own rows and phase are left to check. -/
theorem LockInv.move {after : Table Call Hash TokenRow} {phase : Phase Hash}
    (hinv : LockInv hash rows calls) (hframe : Frame call rows after) (hgrows : Grows rows after)
    (hheld : ∀ key version, (after.cell key).held = some (call, version) →
      Held hash after phase key version)
    (hphase : PhaseOk hash after call phase) :
    LockInv hash after (Function.update calls call phase) where
  held key owner version hown := by
    by_cases heq : owner = call
    · subst heq
      simpa using hheld key version hown
    · have hold := hframe.given key owner version heq hown
      have hcell := hframe.kept key owner version heq hold
      have hcommitted : after.committed key = rows.committed key := congrArg Cell.committed hcell
      rw [Function.update_of_ne heq]
      have := hinv.held key owner version hold
      unfold Held at this ⊢
      rwa [hcommitted]
  phase other := by
    by_cases heq : other = call
    · subst heq
      simpa using hphase
    · rw [Function.update_of_ne heq]
      exact (hinv.phase other).other hframe hgrows heq

/-- A call whose phase holds nothing sees the committed rows. -/
theorem LockInv.view_eq (hinv : LockInv hash rows calls) {key : Hash}
    (hnone : ∀ version, ¬ Held hash rows (calls call) key version) :
    rows.view call key = rows.committed key :=
  view_of_not_held fun version hheld => hnone version (hinv.held key call version hheld)

/-! ### One lemma for each statement -/

/-- A step that leaves the table alone, taken where the call holds no lock. -/
theorem LockInv.goto (hinv : LockInv hash state.rows state.calls) {phase : Phase Hash}
    (hnone : ∀ key version, ¬ Held hash state.rows (state.calls call) key version)
    (hphase : PhaseOk hash state.rows call phase) :
    LockInv hash state.rows (Function.update state.calls call phase) :=
  hinv.move frame_refl (grows_of_committed fun _ => rfl)
    (fun key version hheld => absurd (hinv.held key call version hheld) (hnone key version)) hphase

theorem lockInv_select (hinv : LockInv hash state.rows state.calls)
    (hstep : select hash state call = some after) :
    LockInv hash after.rows after.calls ∧ after = { state with calls := after.calls } := by
  unfold select at hstep
  split at hstep
  case h_2 => cases hstep
  rename_i token now hphase
  have hnone : ∀ key version, ¬ Held hash state.rows (state.calls call) key version := by
    intro key version hheld
    rw [hphase] at hheld
    exact hheld
  split at hstep
  · rename_i hsome
    cases hstep
    rw [hinv.view_eq (hnone _)] at hsome
    exact ⟨hinv.goto hnone (Option.isSome_iff_exists.mp hsome), rfl⟩
  · cases hstep
    exact ⟨hinv.goto hnone trivial, rfl⟩

/-- The snapshot of `revokeFamily`, taken while the call has changed no row. -/
theorem phaseOk_startUpdate {familyId : FamilyId} {now : Nat} {caller : Option (Token × Owner)}
    (hview : ∀ key, state.rows.view call key = state.rows.committed key)
    (hcaller : ∀ token owner, caller = some (token, owner) → owner.familyId = familyId ∧
      ∃ row, state.rows.committed (hash token) = some row ∧ row.owner = owner) :
    PhaseOk hash state.rows call (startUpdate state call familyId now caller) := by
  refine ⟨fun key hkey => ?_, fun key hkey => ?_, hcaller⟩
  case refine_2 =>
    obtain ⟨row, hrow, hrevocable⟩ := mem_scan.mp hkey
    simp only [revocable, Bool.and_eq_true] at hrevocable
    exact mem_scan.mpr ⟨row, hrow, hrevocable.1⟩
  obtain ⟨row, hrow, hfamily⟩ := mem_scan.mp hkey
  refine ⟨row, (hview key).symm.trans hrow, of_decide_eq_true hfamily, ?_⟩
  cases hrevoked : row.revokedAt with
  | none =>
      refine .inl (mem_scan.mpr ⟨row, hrow, ?_⟩)
      simp [revocable, of_decide_eq_true hfamily, hrevoked]
  | some time => exact .inr (.inl rfl)

/-- A rotation that has only locked its row sees the committed rows. -/
theorem LockInv.view_reusing {token : Token} {now : Nat} {owner : Owner}
    (hinv : LockInv hash rows calls) (hphase : calls call = .reusing token now owner) (key : Hash) :
    rows.view call key = rows.committed key := by
  by_cases hheld : ∃ version, (rows.cell key).held = some (call, version)
  · obtain ⟨version, hversion⟩ := hheld
    have hmine := hinv.held key call version hversion
    rw [hphase] at hmine
    exact (view_of_held hversion).trans hmine.2
  · push Not at hheld
    exact view_of_not_held hheld

theorem lockInv_startRevoke (hinv : LockInv hash state.rows state.calls)
    (hstep : startRevoke state call = some after) :
    LockInv hash after.rows after.calls ∧ after = { state with calls := after.calls } := by
  unfold startRevoke at hstep
  split at hstep
  case h_2 => cases hstep
  rename_i token now owner hphase
  cases hstep
  have hok := hinv.phase call
  rw [hphase] at hok
  obtain ⟨row, hcell, howner⟩ := hok
  have hcommitted : state.rows.committed (hash token) = some row := congrArg Cell.committed hcell
  refine ⟨hinv.move frame_refl (grows_of_committed fun _ => rfl) ?_
    (phaseOk_startUpdate (hinv.view_reusing hphase) ?_), rfl⟩
  · intro key version hheld
    have hmine := hinv.held key call version hheld
    rw [hphase] at hmine
    obtain ⟨rfl, rfl⟩ := hmine
    exact ⟨row, hcommitted, .inl hcommitted⟩
  · rintro _ _ ⟨⟩
    exact ⟨rfl, row, hcommitted, howner⟩

theorem lockInv_revokeFamily {familyId : FamilyId} (hinv : LockInv hash state.rows state.calls)
    (hstep : revokeFamily state call familyId = some after) :
    LockInv hash after.rows after.calls ∧
      after = { state with calls := after.calls, families := familyId :: state.families } := by
  unfold revokeFamily at hstep
  split at hstep
  case h_2 => cases hstep
  rename_i hphase
  cases hstep
  have hnone : ∀ key version, ¬ Held hash state.rows (state.calls call) key version := by
    intro key version hheld
    rw [hphase] at hheld
    exact hheld
  exact ⟨hinv.goto hnone (phaseOk_startUpdate (fun key => hinv.view_eq (hnone key)) nofun), rfl⟩

theorem lockInv_abort (hinv : LockInv hash state.rows state.calls)
    (hstep : abort state call = some after) :
    LockInv hash after.rows after.calls ∧
      after = { state with rows := after.rows, calls := after.calls } ∧
      ∀ key, after.rows.committed key = state.rows.committed key := by
  unfold abort at hstep
  split at hstep
  case isFalse => cases hstep
  cases hstep
  refine ⟨hinv.move frame_rollback (grows_of_committed fun _ => committed_rollback) ?_ trivial, rfl,
    fun _ => committed_rollback⟩
  intro key version hheld
  exact absurd rfl (held_rollback_iff.mp hheld).1

theorem LockInv.commit (hinv : LockInv hash rows calls) {phase : Phase Hash}
    (hgrows : Grows rows (rows.commit call)) (hphase : PhaseOk hash (rows.commit call) call phase) :
    LockInv hash (rows.commit call) (Function.update calls call phase) :=
  hinv.move frame_commit hgrows
    (fun _ _ hheld => absurd rfl (held_commit_iff.mp hheld).1) hphase

theorem commit_rejecting {token : Token} {reason : RejectReason} {owner : Option Owner}
    (hinv : LockInv hash rows calls) (hphase : calls call = .rejecting token reason owner)
    (key : Hash) : (rows.commit call).committed key = rows.committed key := by
  rcases commit_cases rows call key with ⟨version, hheld, hcell⟩ | ⟨-, hcell⟩
  · have := hinv.held key call version hheld
    rw [hphase] at this
    rw [← this.2]
    exact congrArg Cell.committed hcell
  · exact congrArg Cell.committed hcell

/-- The COMMIT of a rotation: its row becomes used, the next one becomes visible, nothing else. -/
theorem commit_inserted {token next : Token} {now : Nat} {owner : Owner}
    (hinv : LockInv hash rows calls) (hphase : calls call = .inserted token next now owner) :
    ∃ row, rows.committed (hash token) = some row ∧ row.Live owner ∧
      rows.committed (hash next) = none ∧
      (rows.commit call).committed (hash token) = some (row.use now) ∧
      (rows.commit call).committed (hash next) = some (row.successor now) ∧
      ∀ key, key ≠ hash token → key ≠ hash next →
        (rows.commit call).committed key = rows.committed key := by
  have hok := hinv.phase call
  rw [hphase] at hok
  obtain ⟨row, hcell, hlive, hnext⟩ := hok
  refine ⟨row, congrArg Cell.committed hcell, hlive, congrArg Cell.committed hnext, ?_, ?_, ?_⟩
  · exact congrArg Cell.committed (commit_of_held (by rw [hcell]))
  · exact congrArg Cell.committed (commit_of_held (by rw [hnext]))
  · intro key htoken hnext
    refine congrArg Cell.committed (commit_of_not_held fun version hheld => ?_)
    have := hinv.held key call version hheld
    rw [hphase] at this
    exact this.elim (fun h => htoken h.1) hnext

/-- The COMMIT of a `revokeFamily` whose UPDATE is done: rows of the family get their stamp, and of
the rows it saw at its start none is left without. -/
theorem commit_updating {familyId : FamilyId} {now affected : Nat} {caller : Option (Token × Owner)}
    {snapshot : List Hash} (hinv : LockInv hash rows calls)
    (hphase : calls call = .updating familyId now caller snapshot [] affected) :
    (∀ key, (rows.commit call).committed key = rows.committed key ∨
      (key ∈ snapshot ∧ ∃ row, rows.committed key = some row ∧ row.familyId = familyId ∧
        (rows.commit call).committed key = some (row.revoke now))) ∧
    ∀ key ∈ snapshot, ∃ row, (rows.commit call).committed key = some row ∧
      row.familyId = familyId ∧ row.revokedAt.isSome := by
  constructor
  · intro key
    rcases commit_cases rows call key with ⟨version, hheld, hcell⟩ | ⟨-, hcell⟩
    · have := hinv.held key call version hheld
      rw [hphase] at this
      obtain ⟨row, hrow, rfl | ⟨hseen, hfamily, rfl⟩⟩ := this
      · exact .inl ((congrArg Cell.committed hcell).trans hrow.symm)
      · exact .inr ⟨hseen, row, hrow, hfamily, congrArg Cell.committed hcell⟩
    · exact .inl (congrArg Cell.committed hcell)
  · intro key hkey
    have hok := hinv.phase call
    rw [hphase] at hok
    obtain ⟨row, hrow, hfamily, htodo | hrevoked | hheld⟩ := hok.1 key hkey
    · cases htodo
    · rcases commit_cases rows call key with ⟨version, hheld, hcell⟩ | ⟨-, hcell⟩
      · have := hinv.held key call version hheld
        rw [hphase] at this
        obtain ⟨base, hbase, rfl | ⟨-, -, rfl⟩⟩ := this
        · rw [hrow] at hbase
          cases hbase
          exact ⟨row, congrArg Cell.committed hcell, hfamily, hrevoked⟩
        · rw [hrow] at hbase
          cases hbase
          exact ⟨row.revoke now, congrArg Cell.committed hcell, hfamily, rfl⟩
      · exact ⟨row, (congrArg Cell.committed hcell).trans hrow, hfamily, hrevoked⟩
    · exact ⟨row.revoke now, congrArg Cell.committed (commit_of_held hheld), hfamily, rfl⟩

/-- Once the UPDATE of a `revokeFamily` is committed, the rows of its snapshot are revoked. -/
theorem revoked_of_commit {familyId : FamilyId} {now affected : Nat}
    {caller : Option (Token × Owner)} {snapshot : List Hash}
    (hinv : LockInv hash state.rows state.calls)
    (hphase : state.calls call = .updating familyId now caller snapshot [] affected)
    (hstep : commit state call = some after) :
    ∀ key ∈ snapshot, ∃ row, after.rows.committed key = some row ∧ row.revokedAt.isSome := by
  have hrows : after.rows = state.rows.commit call := by
    unfold commit at hstep
    rw [hphase] at hstep
    cases caller <;> cases hstep <;> rfl
  intro key hkey
  obtain ⟨row, hrow, -, hrevoked⟩ := (commit_updating hinv hphase).2 key hkey
  rw [hrows]
  exact ⟨row, hrow, hrevoked⟩

theorem revokedFamilies_of_commit {familyId : FamilyId} {now affected : Nat}
    {caller : Option (Token × Owner)} {snapshot : List Hash}
    (hphase : state.calls call = .updating familyId now caller snapshot [] affected)
    (hstep : commit state call = some after) :
    after.revokedFamilies = familyId :: state.revokedFamilies := by
  unfold commit at hstep
  rw [hphase] at hstep
  cases caller <;> cases hstep <;> rfl

variable [DecidableEq Hash]

theorem lockInv_issue {userId : UserId} {familyId : FamilyId} {token : Token}
    (hinv : LockInv hash state.rows state.calls)
    (hstep : issue hash state call userId familyId token = some after) :
    LockInv hash after.rows after.calls ∧ familyId ∉ state.families ∧
      state.rows.committed (hash token) = none ∧
      (∀ key, after.rows.committed key =
        if key = hash token then some (TokenRow.issued userId familyId state.clock)
        else state.rows.committed key) ∧
      after.families = familyId :: state.families ∧ after.returned = state.returned ∧
      after.revokedFamilies = state.revokedFamilies := by
  unfold issue at hstep
  split at hstep
  case isFalse => cases hstep
  rename_i hguard
  obtain ⟨hidle, hfresh, habsent⟩ := hguard
  cases hstep
  have hnone : ∀ key version, (state.rows.cell key).held ≠ some (call, version) := by
    intro key version hheld
    have := hinv.held key call version hheld
    rw [hidle] at this
    exact this
  have hlock : state.rows.lockable call (hash token) = true :=
    lockable_iff.mpr fun owner version hheld => by simp [habsent, Cell.absent] at hheld
  have hcommitted : ∀ key, ((state.rows.put call (hash token)
      (some (TokenRow.issued userId familyId state.clock))).commit call).committed key =
        if key = hash token then some (TokenRow.issued userId familyId state.clock)
        else state.rows.committed key := by
    intro key
    by_cases heq : key = hash token
    · subst heq
      rw [committed, commit_of_held (by rw [cell_put_self]), if_pos rfl]
    · rw [committed, commit_of_not_held fun version => by
        rw [cell_put_of_ne heq]
        exact hnone key version, cell_put_of_ne heq, if_neg heq]
      rfl
  have hfree : state.rows.committed (hash token) = none := congrArg Cell.committed habsent
  refine ⟨hinv.move ((frame_put hlock).trans frame_commit) ?_ ?_ trivial, hfresh, hfree, hcommitted,
    rfl, rfl, rfl⟩
  · intro key row hrow
    refine ⟨row, ?_, .refl row⟩
    rw [hcommitted, if_neg, hrow]
    rintro rfl
    rw [hfree] at hrow
    cases hrow
  · intro key version hheld
    exact absurd rfl (held_commit_iff.mp hheld).1

theorem lockInv_lock (hinv : LockInv hash state.rows state.calls)
    (hstep : lock hash state call = some after) :
    ∃ token now row, state.calls call = .selecting token now ∧
      state.rows.committed (hash token) = some row ∧
      LockInv hash after.rows after.calls ∧
      after = { state with
        rows := state.rows.put call (hash token) (some row)
        calls := Function.update state.calls call (decide token now row) } := by
  unfold lock at hstep
  split at hstep
  case h_2 => cases hstep
  rename_i token now hphase
  split at hstep
  case isFalse => cases hstep
  rename_i hlock
  split at hstep
  case h_2 => cases hstep
  rename_i row hview
  cases hstep
  have hnone : ∀ key version, ¬ Held hash state.rows (state.calls call) key version := by
    intro key version hheld
    rw [hphase] at hheld
    exact hheld
  rw [hinv.view_eq (hnone _)] at hview
  have hcell : (state.rows.put call (hash token) (some row)).cell (hash token) =
      ⟨some row, some (call, some row)⟩ := by
    rw [cell_put_self, hview]
  have hmine : ∀ key version,
      ((state.rows.put call (hash token) (some row)).cell key).held = some (call, version) →
      key = hash token ∧ version = (state.rows.put call (hash token) (some row)).committed key := by
    intro key version hheld
    rcases held_put_iff.mp hheld with ⟨rfl, -, rfl⟩ | ⟨-, hold⟩
    · exact ⟨rfl, by rw [committed_put, hview]⟩
    · exact absurd (hinv.held key call version hold) (hnone key version)
  refine ⟨token, now, row, hphase, hview, hinv.move (frame_put hlock)
    (grows_of_committed fun _ => committed_put) ?_ ?_, rfl⟩
  · intro key version hheld
    unfold decide
    split_ifs <;> exact hmine key version hheld
  · unfold decide
    split_ifs with hrevoked hused hexpired
    · trivial
    · exact ⟨row, hcell, rfl⟩
    · trivial
    · exact ⟨row, hcell, by simpa using hused, by simpa using hrevoked, rfl⟩

theorem lockInv_markUsed (hinv : LockInv hash state.rows state.calls)
    (hstep : markUsed hash state call = some after) :
    LockInv hash after.rows after.calls ∧
      after = { state with rows := after.rows, calls := after.calls } ∧
      ∀ key, after.rows.committed key = state.rows.committed key := by
  unfold markUsed at hstep
  split at hstep
  case h_2 => cases hstep
  rename_i token now owner hphase
  have hok := hinv.phase call
  rw [hphase] at hok
  obtain ⟨row, hcell, hlive⟩ := hok
  have hheld : (state.rows.cell (hash token)).held = some (call, some row) := by rw [hcell]
  rw [view_of_held hheld] at hstep
  cases hstep
  have hcommitted : state.rows.committed (hash token) = some row := congrArg Cell.committed hcell
  refine ⟨hinv.move (frame_put (lockable_of_held hheld))
    (grows_of_committed fun _ => committed_put) ?_ ⟨row, ?_, hlive⟩, rfl, fun _ => committed_put⟩
  · intro key version hmine
    rcases held_put_iff.mp hmine with ⟨rfl, -, rfl⟩ | ⟨hne, hold⟩
    · exact ⟨rfl, by rw [committed_put, hcommitted]; rfl⟩
    · have := hinv.held key call version hold
      rw [hphase] at this
      exact absurd this.1 hne
  · rw [cell_put_self, hcommitted]

theorem lockInv_insert {next : Token} (hinv : LockInv hash state.rows state.calls)
    (hstep : insert hash state call next = some after) :
    LockInv hash after.rows after.calls ∧
      after = { state with rows := after.rows, calls := after.calls } ∧
      ∀ key, after.rows.committed key = state.rows.committed key := by
  unfold insert at hstep
  split at hstep
  case h_2 => cases hstep
  rename_i token now owner hphase
  have hok := hinv.phase call
  rw [hphase] at hok
  obtain ⟨row, hcell, hlive⟩ := hok
  have hheld : (state.rows.cell (hash token)).held = some (call, some (row.use now)) := by
    rw [hcell]
  rw [view_of_held hheld] at hstep
  dsimp only at hstep
  split at hstep
  case isFalse => cases hstep
  rename_i habsent
  cases hstep
  have hcommitted : state.rows.committed (hash token) = some row := congrArg Cell.committed hcell
  have hne : hash token ≠ hash next := by
    intro heq
    rw [heq, habsent] at hcell
    cases hcell
  have hlock : state.rows.lockable call (hash next) = true :=
    lockable_iff.mpr fun owner version hheld => by simp [habsent, Cell.absent] at hheld
  refine ⟨hinv.move (frame_put hlock) (grows_of_committed fun _ => committed_put) ?_
    ⟨row, ?_, hlive, ?_⟩, rfl, fun _ => committed_put⟩
  · intro key version hmine
    rcases held_put_iff.mp hmine with ⟨rfl, -, rfl⟩ | ⟨-, hold⟩
    · exact .inr rfl
    · have := hinv.held key call version hold
      rw [hphase] at this
      exact .inl ⟨this.1, by rw [committed_put]; exact this.2⟩
  · rw [cell_put_of_ne hne, hcell]
  · rw [cell_put_self, committed, habsent]
    rfl

section Updating

variable {familyId : FamilyId} {now affected : Nat} {caller : Option (Token × Owner)}
  {snapshot todo : List Hash} {key : Hash}

omit [DecidableEq Hash]

theorem held_updating (hinv : LockInv hash state.rows state.calls)
    (hphase : state.calls call = .updating familyId now caller snapshot todo affected)
    {version : Option TokenRow} (hheld : (state.rows.cell key).held = some (call, version)) :
    ∃ row, state.rows.committed key = some row ∧ (version = some row ∨
      (key ∈ snapshot ∧ row.familyId = familyId ∧ version = some (row.revoke now))) := by
  have hholds := hinv.held key call version hheld
  rwa [hphase] at hholds

theorem mem_snapshot (hinv : LockInv hash state.rows state.calls)
    (hphase : state.calls call = .updating familyId now caller snapshot todo affected)
    (hkey : key ∈ todo) : key ∈ snapshot := by
  have hok := hinv.phase call
  rw [hphase] at hok
  exact hok.2.1 key hkey

/-- The version a visit works on is the committed one, or the one this UPDATE has written
already. -/
theorem base_updating (hinv : LockInv hash state.rows state.calls)
    (hphase : state.calls call = .updating familyId now caller snapshot todo affected)
    {row : TokenRow} (hview : state.rows.view call key = some row) :
    ∃ base, state.rows.committed key = some base ∧
      (row = base ∨ (key ∈ snapshot ∧ base.familyId = familyId ∧ row = base.revoke now)) := by
  by_cases hheld : ∃ version, (state.rows.cell key).held = some (call, version)
  · obtain ⟨version, hversion⟩ := hheld
    obtain ⟨base, hbase, hcase⟩ := held_updating hinv hphase hversion
    rw [view_of_held hversion] at hview
    subst hview
    exact ⟨base, hbase, by simpa using hcase⟩
  · push Not at hheld
    rw [view_of_not_held hheld] at hview
    exact ⟨row, hview, .inl rfl⟩

/-- A row of the snapshot is there, since rows are never deleted. -/
theorem view_updating (hinv : LockInv hash state.rows state.calls)
    (hphase : state.calls call = .updating familyId now caller snapshot todo affected)
    (hkey : key ∈ snapshot) : ∃ row, state.rows.view call key = some row := by
  have hok := hinv.phase call
  rw [hphase] at hok
  obtain ⟨row, hrow, -⟩ := hok.1 key hkey
  by_cases hheld : ∃ version, (state.rows.cell key).held = some (call, version)
  · obtain ⟨version, hversion⟩ := hheld
    obtain ⟨base, -, rfl | ⟨-, -, rfl⟩⟩ := held_updating hinv hphase hversion
    · exact ⟨base, view_of_held hversion⟩
    · exact ⟨base.revoke now, view_of_held hversion⟩
  · push Not at hheld
    exact ⟨row, (view_of_not_held hheld).trans hrow⟩

variable [DecidableEq Hash] {rows : Table Call Hash TokenRow} {hit : Bool}

/-- What the visit leaves in the hands of the call. -/
theorem held_visit (hinv : LockInv hash state.rows state.calls)
    (hphase : state.calls call = .updating familyId now caller snapshot todo affected)
    (hkey : key ∈ snapshot)
    (hvisit : state.rows.visit call key (revocable familyId) (fun row => row.revoke now) =
      some (rows, hit)) {version : Option TokenRow}
    (hheld : (rows.cell key).held = some (call, version)) :
    ∃ row, state.rows.committed key = some row ∧ (version = some row ∨
      (key ∈ snapshot ∧ row.familyId = familyId ∧ version = some (row.revoke now))) := by
  obtain ⟨-, ⟨row, hrow, hcond, -, rfl⟩ | ⟨row, hrow, hcond, -, rfl⟩ | ⟨hnone, -, rfl⟩⟩ :=
    visit_eq_some hvisit
  · rw [cell_put_self] at hheld
    cases hheld
    obtain ⟨base, hbase, rfl | ⟨-, -, rfl⟩⟩ := base_updating hinv hphase hrow
    · refine ⟨row, hbase, .inr ⟨hkey, ?_, rfl⟩⟩
      simp only [revocable, Bool.and_eq_true, decide_eq_true_eq] at hcond
      exact hcond.1
    · simp [revocable, TokenRow.revoke] at hcond
  · rw [cell_put_self] at hheld
    cases hheld
    obtain ⟨base, hbase, rfl | ⟨hseen, hfamily, rfl⟩⟩ := base_updating hinv hphase hrow
    · exact ⟨row, hbase, .inl rfl⟩
    · exact ⟨base, hbase, .inr ⟨hseen, hfamily, rfl⟩⟩
  · exact held_updating hinv hphase hheld

/-- A row of the family that has been visited is revoked already, or this UPDATE holds it
revoked. -/
theorem revoked_visit (hinv : LockInv hash state.rows state.calls)
    (hphase : state.calls call = .updating familyId now caller snapshot todo affected)
    (hkey : key ∈ snapshot)
    (hvisit : state.rows.visit call key (revocable familyId) (fun row => row.revoke now) =
      some (rows, hit)) {row : TokenRow} (hrow : state.rows.committed key = some row)
    (hfamily : row.familyId = familyId) :
    row.revokedAt.isSome ∨ (rows.cell key).held = some (call, some (row.revoke now)) := by
  obtain ⟨-, ⟨seen, hseen, hcond, -, rfl⟩ | ⟨seen, hseen, hcond, -, rfl⟩ | ⟨hnone, -, rfl⟩⟩ :=
    visit_eq_some hvisit
  · obtain ⟨base, hbase, rfl | ⟨-, -, rfl⟩⟩ := base_updating hinv hphase hseen
    · rw [hrow] at hbase
      cases hbase
      exact .inr (by rw [cell_put_self])
    · simp [revocable, TokenRow.revoke] at hcond
  · obtain ⟨base, hbase, rfl | ⟨-, -, rfl⟩⟩ := base_updating hinv hphase hseen
    · rw [hrow] at hbase
      cases hbase
      refine .inl ?_
      simp only [revocable, hfamily, decide_true, Bool.true_and,
        Option.isNone_eq_false_iff] at hcond
      exact hcond
    · rw [hrow] at hbase
      cases hbase
      exact .inr (by rw [cell_put_self])
  · obtain ⟨seen, hseen⟩ := view_updating hinv hphase hkey
    rw [hseen] at hnone
    cases hnone

end Updating

theorem lockInv_visit {key : Hash} (hinv : LockInv hash state.rows state.calls)
    (hstep : visit state call key = some after) :
    LockInv hash after.rows after.calls ∧
      after = { state with rows := after.rows, calls := after.calls } ∧
      ∀ other, after.rows.committed other = state.rows.committed other := by
  unfold visit at hstep
  split at hstep
  case h_2 => cases hstep
  rename_i familyId now caller snapshot todo affected hphase
  split at hstep
  case isFalse => cases hstep
  rename_i hmem
  split at hstep
  case h_2 => cases hstep
  rename_i rows hit hvisit
  cases hstep
  have hcommitted : ∀ other, rows.committed other = state.rows.committed other :=
    committed_visit hvisit
  have hok := hinv.phase call
  rw [hphase] at hok
  have hkey : key ∈ snapshot := mem_snapshot hinv hphase hmem
  refine ⟨hinv.move (frame_visit hvisit) (grows_of_committed hcommitted) ?_ ⟨?_, ?_, ?_⟩,
    rfl, hcommitted⟩
  · intro other version hheld
    change ∃ row, rows.committed other = some row ∧ _
    rw [hcommitted]
    by_cases heq : other = key
    · subst heq
      exact held_visit hinv hphase hkey hvisit hheld
    · rw [cell_visit_of_ne hvisit heq] at hheld
      exact held_updating hinv hphase hheld
  · intro other hsnapshot
    obtain ⟨row, hrow, hfamily, hdone⟩ := hok.1 other hsnapshot
    refine ⟨row, (hcommitted other).trans hrow, hfamily, ?_⟩
    by_cases heq : other = key
    · subst heq
      exact .inr (revoked_visit hinv hphase hkey hvisit hrow hfamily)
    · rcases hdone with htodo | hrevoked | hheld
      · exact .inl (List.mem_filter.mpr ⟨htodo, by simpa using heq⟩)
      · exact .inr (.inl hrevoked)
      · exact .inr (.inr (by rw [cell_visit_of_ne hvisit heq]; exact hheld))
  · exact fun other hother => hok.2.1 other (List.mem_of_mem_filter hother)
  · intro token owner hcaller
    obtain ⟨hfamily, row, hrow, howner⟩ := hok.2.2 token owner hcaller
    exact ⟨hfamily, row, (hcommitted _).trans hrow, howner⟩

/-! ### The three effects -/

/-- `rotate` calls that end in a rejection may have answered; none that rotated has. -/
def AddsRejected (before after : List (Token × RotationResult)) : Prop :=
  after = before ∨ ∃ token reason owner revokedRows,
    after = before ++ [(token, .rejected reason owner revokedRows)]

/-- What a step does to the committed rows and to the history. -/
inductive Effect (hash : Token → Hash) (before : State Hash) (action : Action Hash)
    (after : State Hash) : Prop
  | unchanged
      (hrows : ∀ key, after.rows.committed key = before.rows.committed key)
      (hfamilies : ∀ familyId ∈ before.families, familyId ∈ after.families)
      (hreturned : AddsRejected before.returned after.returned)
      (hrevoked : after.revokedFamilies = before.revokedFamilies)
  | issued (userId : UserId) (familyId : FamilyId) (token : Token)
      (hfresh : familyId ∉ before.families)
      (habsent : before.rows.committed (hash token) = none)
      (hrows : ∀ key, after.rows.committed key =
        if key = hash token then some (TokenRow.issued userId familyId before.clock)
        else before.rows.committed key)
      (hfamilies : after.families = familyId :: before.families)
      (hreturned : after.returned = before.returned)
      (hrevoked : after.revokedFamilies = before.revokedFamilies)
  | rotated (token next : Token) (row : TokenRow) (now : Nat) (owner : Owner)
      (hrow : before.rows.committed (hash token) = some row) (hlive : row.Live owner)
      (habsent : before.rows.committed (hash next) = none)
      (hused : after.rows.committed (hash token) = some (row.use now))
      (hnext : after.rows.committed (hash next) = some (row.successor now))
      (hrows : ∀ key, key ≠ hash token → key ≠ hash next →
        after.rows.committed key = before.rows.committed key)
      (hfamilies : after.families = before.families)
      (hreturned : after.returned = before.returned ++ [(token, .rotated owner next)])
      (hrevoked : after.revokedFamilies = before.revokedFamilies)
  | revoked (call : Call) (familyId : FamilyId) (now : Nat) (caller : Option (Token × Owner))
      (snapshot : List Hash) (affected : Nat) (haction : action = .commit call)
      (hphase : before.calls call = .updating familyId now caller snapshot [] affected)
      (hrows : ∀ key, after.rows.committed key = before.rows.committed key ∨
        (key ∈ snapshot ∧ ∃ row, before.rows.committed key = some row ∧ row.familyId = familyId ∧
          after.rows.committed key = some (row.revoke now)))
      (hsnapshot : ∀ key ∈ snapshot, ∃ row, after.rows.committed key = some row ∧
        row.familyId = familyId ∧ row.revokedAt.isSome)
      (hfamilies : after.families = before.families)
      (hreturned : AddsRejected before.returned after.returned)
      (hrevoked : after.revokedFamilies = familyId :: before.revokedFamilies)

/-- Rows stay, and the part of them that is constant stays constant. -/
theorem Effect.grows {action : Action Hash} (heffect : Effect hash state action after) :
    Grows state.rows after.rows := by
  intro key row hrow
  cases heffect with
  | unchanged hrows => exact ⟨row, (hrows key).trans hrow, .refl row⟩
  | issued userId familyId token hfresh habsent hrows =>
      refine ⟨row, ?_, .refl row⟩
      rw [hrows, if_neg, hrow]
      rintro rfl
      rw [habsent] at hrow
      cases hrow
  | rotated token next base now owner hbase hlive habsent hused hnext hrows =>
      by_cases htoken : key = hash token
      · subst htoken
        rw [hbase] at hrow
        cases hrow
        exact ⟨_, hused, row.evolves_use now⟩
      · refine ⟨row, ?_, .refl row⟩
        rw [hrows key htoken, hrow]
        rintro rfl
        rw [habsent] at hrow
        cases hrow
  | revoked call familyId now caller snapshot affected haction hphase hrows =>
      rcases hrows key with hsame | ⟨-, base, hbase, -, hafter⟩
      · exact ⟨row, hsame.trans hrow, .refl row⟩
      · rw [hbase] at hrow
        cases hrow
        exact ⟨_, hafter, row.evolves_revoke now⟩

theorem lockInv_commit (hinv : LockInv hash state.rows state.calls)
    (hstep : commit state call = some after) :
    LockInv hash after.rows after.calls ∧ Effect hash state (.commit call) after := by
  unfold commit at hstep
  split at hstep
  · rename_i token reason owner hphase
    cases hstep
    have hsame := commit_rejecting hinv hphase
    exact ⟨hinv.commit (grows_of_committed hsame) trivial,
      .unchanged hsame (fun _ => id) (.inr ⟨_, _, _, _, rfl⟩) rfl⟩
  · rename_i token next now owner hphase
    obtain ⟨row, hrow, hlive, habsent, hused, hnext, hrows⟩ := commit_inserted hinv hphase
    have heffect : Effect hash state (.commit call) after := by
      cases hstep
      exact .rotated token next row now owner hrow hlive habsent hused hnext hrows rfl rfl rfl
    have hgrows := heffect.grows
    cases hstep
    exact ⟨hinv.commit hgrows ⟨row.use now, hused, hlive.owner, rfl⟩, heffect⟩
  · rename_i familyId now token owner snapshot affected hphase
    obtain ⟨hrows, hsnapshot⟩ := commit_updating hinv hphase
    have heffect : Effect hash state (.commit call) after := by
      cases hstep
      exact .revoked call familyId now _ snapshot affected rfl hphase hrows hsnapshot rfl
        (.inr ⟨_, _, _, _, rfl⟩) rfl
    have hgrows := heffect.grows
    cases hstep
    exact ⟨hinv.commit hgrows trivial, heffect⟩
  · rename_i familyId now snapshot affected hphase
    obtain ⟨hrows, hsnapshot⟩ := commit_updating hinv hphase
    have heffect : Effect hash state (.commit call) after := by
      cases hstep
      exact .revoked call familyId now _ snapshot affected rfl hphase hrows hsnapshot rfl (.inl rfl)
        rfl
    have hgrows := heffect.grows
    cases hstep
    exact ⟨hinv.commit hgrows trivial, heffect⟩
  · cases hstep

/-- The inversion of a step: the locks stay consistent, and the database changed by one of the
effects. -/
theorem step_effect {action : Action Hash} (hinv : LockInv hash state.rows state.calls)
    (hstep : step hash state action = some after) :
    LockInv hash after.rows after.calls ∧ Effect hash state action after := by
  have hquiet : after.rows = state.rows ∨
      (∀ key, after.rows.committed key = state.rows.committed key) →
      (∀ familyId ∈ state.families, familyId ∈ after.families) →
      after.returned = state.returned → after.revokedFamilies = state.revokedFamilies →
      Effect hash state action after := fun hrows hfamilies hreturned hrevoked =>
    .unchanged (hrows.elim (fun heq key => by rw [heq]) id) hfamilies (.inl hreturned) hrevoked
  cases action with
  | tick elapsed =>
      cases hstep
      exact ⟨hinv, hquiet (.inl rfl) (fun _ => id) rfl rfl⟩
  | issue call userId familyId token =>
      obtain ⟨hlocks, hfresh, habsent, hrows, hfamilies, hreturned, hrevoked⟩ :=
        lockInv_issue hinv hstep
      exact ⟨hlocks,
        .issued userId familyId token hfresh habsent hrows hfamilies hreturned hrevoked⟩
  | rotate call token =>
      simp only [step, rotate] at hstep
      split at hstep
      case h_2 => cases hstep
      rename_i hphase
      have hnone : ∀ key version, ¬ Held hash state.rows (state.calls call) key version := by
        intro key version hheld
        rw [hphase] at hheld
        exact hheld
      split at hstep <;> cases hstep <;>
        exact ⟨hinv.goto hnone trivial, hquiet (.inl rfl) (fun _ => id) rfl rfl⟩
  | select call =>
      obtain ⟨hlocks, hafter⟩ := lockInv_select hinv hstep
      refine ⟨hlocks, ?_⟩
      rw [hafter]
      exact .unchanged (fun _ => rfl) (fun _ => id) (.inl rfl) rfl
  | lock call =>
      obtain ⟨token, now, row, -, -, hlocks, rfl⟩ := lockInv_lock hinv hstep
      exact ⟨hlocks, hquiet (.inr fun _ => committed_put) (fun _ => id) rfl rfl⟩
  | markUsed call =>
      obtain ⟨hlocks, hafter, hrows⟩ := lockInv_markUsed hinv hstep
      refine ⟨hlocks, ?_⟩
      rw [hafter]
      exact .unchanged hrows (fun _ => id) (.inl rfl) rfl
  | insert call next =>
      obtain ⟨hlocks, hafter, hrows⟩ := lockInv_insert hinv hstep
      refine ⟨hlocks, ?_⟩
      rw [hafter]
      exact .unchanged hrows (fun _ => id) (.inl rfl) rfl
  | startRevoke call =>
      obtain ⟨hlocks, hafter⟩ := lockInv_startRevoke hinv hstep
      refine ⟨hlocks, ?_⟩
      rw [hafter]
      exact .unchanged (fun _ => rfl) (fun _ => id) (.inl rfl) rfl
  | revokeFamily call familyId =>
      obtain ⟨hlocks, hafter⟩ := lockInv_revokeFamily hinv hstep
      refine ⟨hlocks, ?_⟩
      rw [hafter]
      exact .unchanged (fun _ => rfl) (fun _ => List.mem_cons_of_mem _) (.inl rfl) rfl
  | visit call key =>
      obtain ⟨hlocks, hafter, hrows⟩ := lockInv_visit hinv hstep
      refine ⟨hlocks, ?_⟩
      rw [hafter]
      exact .unchanged hrows (fun _ => id) (.inl rfl) rfl
  | commit call => exact lockInv_commit hinv hstep
  | abort call =>
      obtain ⟨hlocks, hafter, hrows⟩ := lockInv_abort hinv hstep
      refine ⟨hlocks, ?_⟩
      rw [hafter]
      exact .unchanged hrows (fun _ => id) (.inl rfl) rfl

/-- The run lemma of the locks. -/
theorem lockInv_of_reach {ok : State Hash → Action Hash → Prop}
    (hreach : Reach (step hash) ok State.init state) : LockInv hash state.rows state.calls :=
  hreach.invariant (fun state => LockInv hash state.rows state.calls) lockInv_init
    fun _ _ _ _ hinv _ hstep => (step_effect hinv hstep).1

end Marketplace.RefreshToken
