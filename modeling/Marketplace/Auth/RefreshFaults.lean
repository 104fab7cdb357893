import Marketplace.Auth.AuthService

/-!
# A refresh that fails

`AuthService.refresh` for a token that could be rotated, with one failure on the way. The rotation
is committed before the user is read and the access token is signed, so a failure after it leaves
the client without the new token and with one that is used.
-/

namespace Marketplace.AuthService

open ReadCommitted ReadCommitted.Table Transition
open RefreshToken (FamilyId Token TokenRow tokenPattern sampleToken)

/-- Where the call fails. -/
inductive Fault where
  /-- A statement of the rotation, after so many that went through: the SELECT, its lock, the
  UPDATE, the INSERT or the COMMIT. -/
  | rotation (done : Fin 5)
  | readUser
  | sign
  deriving DecidableEq

/-- What a refresh draws and reads on its way. -/
structure Draws where
  next : Token
  role : UserRole
  jti : Jti

section Calls

variable {Hash : Type} [DecidableEq Hash] (hash : Token → Hash) (state : State Hash) (call : Call)
  (token : Token) (draws : Draws)

/-- The statements of a rotation that succeeds. -/
def rotationSteps : List (Action Hash) :=
  [.statement (.select call), .statement (.lock call), .statement (.markUsed call),
    .statement (.insert call draws.next), .statement (.commit call)]

/-- A call of `refresh` that succeeds. -/
def refreshSteps : List (Action Hash) :=
  .refresh call token :: rotationSteps call draws ++
    [.readUser call (some draws.role), .sign call draws.jti]

/-- A call of `refresh` that fails. An error of the rotation rolls its transaction back, an error of
the later steps has nothing to undo. -/
def failedRefresh : Fault → Option (State Hash)
  | .rotation done =>
      run (step hash) state (.refresh call token :: (rotationSteps call draws).take done ++
        [.statement (.abort call), .reject call])
  | .readUser =>
      (run (step hash) state (.refresh call token :: rotationSteps call draws)).map fun after =>
        after.goto call .threw
  | .sign =>
      (run (step hash) state (.refresh call token :: rotationSteps call draws ++
        [.readUser call (some draws.role)])).map fun after => after.goto call .threw

/-- The token is in the table, and nothing speaks against its rotation. -/
structure Live (row : TokenRow) : Prop where
  pattern : tokenPattern token = true
  cell : state.tokens.rows.cell (hash token) = ⟨some row, none⟩
  unused : row.usedAt = none
  unrevoked : row.revokedAt = none

/-- A call that has not begun, and new values for what it draws. -/
structure Ready : Prop where
  handler : state.handlers call = .idle
  phase : state.tokens.calls call = .idle
  holds : ∀ key version, (state.tokens.rows.cell key).held ≠ some (call, version)
  next : state.tokens.rows.cell (hash draws.next) = Cell.absent
  jti : draws.jti ∉ state.signed.map AccessToken.jti

end Calls

variable {Hash : Type} [DecidableEq Hash] {hash : Token → Hash} {state : State Hash} {call : Call}
  {token : Token} {draws : Draws} {row : TokenRow}

/-- The token can be presented again: any later call before its expiry returns a pair. -/
def Rotates (hash : Token → Hash) (state : State Hash) (token : Token) (row : TokenRow) : Prop :=
  ∀ call draws elapsed, Ready hash state call draws → state.tokens.clock + elapsed < row.expiresAt →
    ∃ after accessToken, run (step hash) state (.tick elapsed :: refreshSteps call token draws) =
      some after ∧ after.handlers call = .returned accessToken draws.next

/-- The failure has cost nothing: the token is unused, and it can be presented again. -/
def Spared (hash : Token → Hash) (state : State Hash) (token : Token) : Prop :=
  ∃ row, state.tokens.rows.committed (hash token) = some row ∧ row.usedAt = none ∧
    Rotates hash state token row

/-! ### The statements of the call, one by one -/

/-- The state while the call is under way. -/
def State.during (state : State Hash) (call : Call) (rows : Table Call Hash TokenRow)
    (phase : RefreshToken.Phase Hash) (handler : Handler)
    (returned : List (Token × RefreshToken.RotationResult)) : State Hash :=
  { state with
    tokens := { state.tokens with
      rows := rows
      calls := Function.update state.tokens.calls call phase
      returned := returned }
    handlers := Function.update state.handlers call handler
    started := call :: state.started }

section Steps

variable {rows : Table Call Hash TokenRow} {now : Nat} {owner : RefreshToken.Owner} {next : Token}
  {returned : List (Token × RefreshToken.RotationResult)}

theorem refresh_during (hready : Ready hash state call draws)
    (hpattern : tokenPattern token = true) :
    step hash state (.refresh call token) = some (state.during call state.tokens.rows
      (.began token state.tokens.clock) .rotating state.tokens.returned) := by
  simp [step, refresh, RefreshToken.rotate, hready.handler, hready.phase, hpattern, State.during,
    State.goto, RefreshToken.State.goto]

theorem select_during (hrow : (rows.view call (hash token)).isSome) :
    step hash (state.during call rows (.began token now) .rotating returned)
        (.statement (.select call)) =
      some (state.during call rows (.selecting token now) .rotating returned) := by
  simp [step, statement, isStatement, RefreshToken.step, RefreshToken.select, State.during, hrow,
    RefreshToken.State.goto]

theorem lock_during (hlock : rows.lockable call (hash token) = true)
    (hrow : rows.view call (hash token) = some row) (hunused : row.usedAt = none)
    (hunrevoked : row.revokedAt = none) (hfresh : now < row.expiresAt) :
    step hash (state.during call rows (.selecting token now) .rotating returned)
        (.statement (.lock call)) =
      some (state.during call (rows.put call (hash token) (some row))
        (.rotating token now row.owner)
        .rotating returned) := by
  have hdecide : (RefreshToken.decide token now row : RefreshToken.Phase Hash) =
      .rotating token now row.owner := by
    simp [RefreshToken.decide, hunused, hunrevoked, TokenRow.expired, hfresh]
  simp [step, statement, isStatement, RefreshToken.step, RefreshToken.lock, State.during,
    hlock, hrow, hdecide, RefreshToken.State.goto]

theorem markUsed_during (hrow : rows.view call (hash token) = some row) :
    step hash (state.during call rows (.rotating token now owner) .rotating returned)
        (.statement (.markUsed call)) =
      some (state.during call (rows.put call (hash token) (some (row.use now)))
        (.inserting token now owner) .rotating returned) := by
  simp [step, statement, isStatement, RefreshToken.step, RefreshToken.markUsed, State.during, hrow,
    RefreshToken.State.goto]

theorem insert_during (hrow : rows.view call (hash token) = some row)
    (hnext : rows.cell (hash next) = Cell.absent) :
    step hash (state.during call rows (.inserting token now owner) .rotating returned)
        (.statement (.insert call next)) =
      some (state.during call (rows.put call (hash next) (some (row.successor now)))
        (.inserted token next now owner) .rotating returned) := by
  simp [step, statement, isStatement, RefreshToken.step, RefreshToken.insert, State.during,
    hrow, hnext, RefreshToken.State.goto]

theorem commit_during :
    step hash (state.during call rows (.inserted token next now owner) .rotating returned)
        (.statement (.commit call)) =
      some (state.during call (rows.commit call) (.answered token (.rotated owner next)) .rotating
        (returned ++ [(token, .rotated owner next)])) := by
  simp [step, statement, isStatement, RefreshToken.step, RefreshToken.commit, State.during,
    RefreshToken.State.goto]

theorem readUser_during (role : UserRole) :
    step hash (state.during call rows (.answered token (.rotated owner next)) .rotating returned)
        (.readUser call (some role)) =
      some (state.during call rows (.answered token (.rotated owner next))
        (.signing owner.userId role owner.familyId next) returned) := by
  simp [step, readUser, State.during, State.goto]

theorem sign_during (hash : Token → Hash) {phase : RefreshToken.Phase Hash} (userId : UserId)
    (role : UserRole) (familyId : FamilyId) {jti : Jti}
    (hjti : jti ∉ state.signed.map AccessToken.jti) :
    ∃ after accessToken,
      step hash (state.during call rows phase (.signing userId role familyId next)
          returned) (.sign call jti) = some after ∧
        after.handlers call = .returned accessToken next := by
  have hjti' : ∀ signed ∈ state.signed, signed.jti ≠ jti := fun signed hsigned heq =>
    hjti (heq ▸ List.mem_map_of_mem hsigned)
  simpa [step, sign, State.during, State.goto] using hjti'

theorem abort_during {phase : RefreshToken.Phase Hash} (hopen : phase.isOpen = true) :
    run (step hash) (state.during call rows phase .rotating returned)
        [.statement (.abort call), .reject call] =
      some (state.during call (rows.rollback call) .threw .threw returned) := by
  simp [step, statement, isStatement, RefreshToken.step, RefreshToken.abort, State.during,
    hopen, reject, State.goto, RefreshToken.State.goto]

end Steps

/-! ### The whole call -/

/-- The tables that the statements of a rotation leave. -/
def locked (state : State Hash) (call : Call) (key : Hash) (row : TokenRow) :
    Table Call Hash TokenRow :=
  state.tokens.rows.put call key (some row)

def used (state : State Hash) (call : Call) (key : Hash) (row : TokenRow) :
    Table Call Hash TokenRow :=
  (locked state call key row).put call key (some (row.use state.tokens.clock))

def inserted (state : State Hash) (call : Call) (key next : Hash) (row : TokenRow) :
    Table Call Hash TokenRow :=
  (used state call key row).put call next
    (some ((row.use state.tokens.clock).successor state.tokens.clock))

omit [DecidableEq Hash] in
theorem Live.committed (hlive : Live hash state token row) :
    state.tokens.rows.committed (hash token) = some row := by
  simp [Table.committed, hlive.cell]

omit [DecidableEq Hash] in
theorem Live.lockable (hlive : Live hash state token row) (call : Call) :
    state.tokens.rows.lockable call (hash token) = true := by
  simp [Table.lockable, Cell.lockable, hlive.cell]

omit [DecidableEq Hash] in
theorem Live.view (hlive : Live hash state token row) (call : Call) :
    state.tokens.rows.view call (hash token) = some row := by
  simp [Table.view, Cell.view, hlive.cell]

omit [DecidableEq Hash] in
theorem Ready.ne (hready : Ready hash state call draws) (hlive : Live hash state token row) :
    hash token ≠ hash draws.next := by
  intro heq
  have habsent := hready.next
  rw [← heq, hlive.cell] at habsent
  cases habsent

/-- The states of a rotation between its statements. -/
structure Course (hash : Token → Hash) (state : State Hash) (call : Call) (token : Token)
    (draws : Draws) (row : TokenRow) : Prop where
  refresh : step hash state (.refresh call token) = some (state.during call state.tokens.rows
    (.began token state.tokens.clock) .rotating state.tokens.returned)
  select : step hash (state.during call state.tokens.rows
    (.began token state.tokens.clock) .rotating state.tokens.returned)
      (.statement (.select call)) = some (state.during call state.tokens.rows
        (.selecting token state.tokens.clock) .rotating state.tokens.returned)
  lock : step hash (state.during call state.tokens.rows
    (.selecting token state.tokens.clock) .rotating state.tokens.returned)
      (.statement (.lock call)) =
      some (state.during call (locked state call (hash token) row)
        (.rotating token state.tokens.clock row.owner) .rotating state.tokens.returned)
  markUsed : step hash (state.during call (locked state call (hash token) row)
    (.rotating token state.tokens.clock row.owner) .rotating state.tokens.returned)
      (.statement (.markUsed call)) = some (state.during call (used state call (hash token) row)
        (.inserting token state.tokens.clock row.owner) .rotating state.tokens.returned)
  insert : step hash (state.during call (used state call (hash token) row)
    (.inserting token state.tokens.clock row.owner) .rotating state.tokens.returned)
      (.statement (.insert call draws.next)) =
        some (state.during call (inserted state call (hash token) (hash draws.next) row)
          (.inserted token draws.next state.tokens.clock row.owner) .rotating state.tokens.returned)

theorem course (hlive : Live hash state token row) (hready : Ready hash state call draws)
    (hfresh : state.tokens.clock < row.expiresAt) : Course hash state call token draws row where
  refresh := refresh_during hready hlive.pattern
  select := select_during (by rw [hlive.view call]; rfl)
  lock := lock_during (hlive.lockable call) (hlive.view call) hlive.unused hlive.unrevoked hfresh
  markUsed := markUsed_during (view_of_held (by rw [locked, cell_put_self]))
  insert := by
    have hne := hready.ne hlive
    apply insert_during (view_of_held (by rw [used, cell_put_self]))
    rw [used, locked, cell_put_of_ne hne.symm, cell_put_of_ne hne.symm, hready.next]

/-- The first statements of a rotation, up to the one that fails: the row is locked at most. -/
theorem run_rotation_take (hlive : Live hash state token row) (hready : Ready hash state call draws)
    (hfresh : state.tokens.clock < row.expiresAt) (done : Fin 5) : ∃ rows phase,
    run (step hash) state (.refresh call token :: (rotationSteps call draws).take done) =
      some (state.during call rows phase .rotating state.tokens.returned) ∧ phase.isOpen = true ∧
        rows.lockable call (hash token) = true ∧ rows.committed (hash token) = some row := by
  obtain ⟨hrefresh, hselect, hlock, hmark, hinsert⟩ := course hlive hready hfresh
  have hlockable := hlive.lockable call
  have hcommitted := hlive.committed
  match done with
  | 0 =>
      refine ⟨state.tokens.rows, .began token state.tokens.clock, ?_, rfl, hlockable, hcommitted⟩
      simp [rotationSteps, hrefresh]
  | 1 =>
      refine ⟨state.tokens.rows, .selecting token state.tokens.clock, ?_, rfl,
        hlockable, hcommitted⟩
      simp [rotationSteps, hrefresh, hselect]
  | 2 =>
      refine ⟨locked state call (hash token) row,
        .rotating token state.tokens.clock row.owner, ?_, rfl,
        lockable_put hlockable, by rw [locked, committed_put, hcommitted]⟩
      simp [rotationSteps, hrefresh, hselect, hlock]
  | 3 =>
      refine ⟨used state call (hash token) row,
        .inserting token state.tokens.clock row.owner, ?_, rfl,
        lockable_put (lockable_put hlockable),
        by rw [used, locked, committed_put, committed_put, hcommitted]⟩
      change run (step hash) state (_ :: (rotationSteps call draws).take 3) = _
      simp [rotationSteps, hrefresh, hselect, hlock, hmark]
  | 4 =>
      refine ⟨inserted state call (hash token) (hash draws.next) row,
        .inserted token draws.next state.tokens.clock row.owner, ?_, rfl,
        lockable_put (lockable_put (lockable_put hlockable)),
        by rw [inserted, used, locked, committed_put, committed_put, committed_put, hcommitted]⟩
      change run (step hash) state (_ :: (rotationSteps call draws).take 4) = _
      simp [rotationSteps, hrefresh, hselect, hlock, hmark, hinsert]

/-- The whole rotation: the row is used for everyone to see. -/
theorem run_rotation (hlive : Live hash state token row) (hready : Ready hash state call draws)
    (hfresh : state.tokens.clock < row.expiresAt) : ∃ rows returned,
    run (step hash) state (.refresh call token :: rotationSteps call draws) =
      some (state.during call rows (.answered token (.rotated row.owner draws.next)) .rotating
        returned) ∧
        rows.committed (hash token) = some (row.use state.tokens.clock) := by
  obtain ⟨hrefresh, hselect, hlock, hmark, hinsert⟩ := course hlive hready hfresh
  refine ⟨_, _, by
    simp [rotationSteps, hrefresh, hselect, hlock, hmark, hinsert, commit_during]; rfl, ?_⟩
  have hheld : ((inserted state call (hash token) (hash draws.next) row).cell (hash token)).held =
      some (call, some (row.use state.tokens.clock)) := by
    rw [inserted, cell_put_of_ne (hready.ne hlive), used, cell_put_self]
  rw [Table.committed, commit_of_held hheld]

/-- A token that is live can be presented at any time before its expiry. -/
theorem Live.rotates (hlive : Live hash state token row) : Rotates hash state token row := by
  intro call draws elapsed hready hfresh
  let later : State Hash :=
    { state with tokens := { state.tokens with clock := state.tokens.clock + elapsed } }
  have hlive' : Live hash later token row :=
    ⟨hlive.pattern, hlive.cell, hlive.unused, hlive.unrevoked⟩
  have hready' : Ready hash later call draws :=
    ⟨hready.handler, hready.phase, hready.holds, hready.next, hready.jti⟩
  obtain ⟨rows, returned, hrun, -⟩ := run_rotation hlive' hready' hfresh
  have htick : step hash state (.tick elapsed) = some later := rfl
  rw [run_cons, htick, Option.bind_some, refreshSteps, run_append, hrun, Option.bind_some]
  obtain ⟨after, accessToken, hsign, hreturned⟩ := sign_during hash row.owner.userId draws.role
    row.owner.familyId hready'.jti
  refine ⟨after, accessToken, ?_, hreturned⟩
  rw [run_cons, readUser_during, Option.bind_some, run_cons, hsign, Option.bind_some, run_nil]

/-- A refresh that fails costs nothing if and only if it fails in the rotation, whose COMMIT
included. -/
theorem failedRefresh_spared_iff (hlive : Live hash state token row)
    (hready : Ready hash state call draws) (hfresh : state.tokens.clock < row.expiresAt)
    (fault : Fault) : ∃ after,
    failedRefresh hash state call token draws fault = some after ∧ after.handlers call = .threw ∧
      (Spared hash after token ↔ ∃ done, fault = .rotation done) := by
  obtain ⟨rows, returned, hrun, hused⟩ := run_rotation hlive hready hfresh
  have hburnt : ∀ handler, ¬ Spared hash ((state.during call rows
      (.answered token (.rotated row.owner draws.next)) handler returned).goto call
      .threw) token := by
    rintro handler ⟨current, hcurrent, hunused, -⟩
    cases hcurrent.symm.trans hused
    cases hunused
  cases fault with
  | rotation done =>
      obtain ⟨rows, phase, hrun, hopen, hlock, hrow⟩ := run_rotation_take hlive hready hfresh done
      refine ⟨state.during call (rows.rollback call) .threw .threw state.tokens.returned,
        ?_, ?_, ?_⟩
      · rw [failedRefresh, run_append, hrun, Option.bind_some, abort_during hopen]
      · simp [State.during]
      · refine iff_of_true ⟨row, ?_, hlive.unused, ?_⟩ ⟨done, rfl⟩
        · exact (committed_rollback).trans hrow
        · exact Live.rotates ⟨hlive.pattern, cell_rollback_of_lockable hlock hrow, hlive.unused,
            hlive.unrevoked⟩
  | readUser =>
      refine ⟨_, by rw [failedRefresh, hrun, Option.map_some], by simp [State.goto], ?_⟩
      exact iff_of_false (hburnt _) (by simp)
  | sign =>
      refine ⟨_, by
        rw [failedRefresh, run_append, hrun, Option.bind_some, run_cons, readUser_during,
          Option.bind_some, run_nil, Option.map_some], by simp [State.goto], ?_⟩
      exact iff_of_false (hburnt _) (by simp)

/-! ### A login whose first refresh fails -/

/-- User 7 has logged in and holds the first token of family 0. -/
def freshLogin : List (Action Token) :=
  [.login 1 (some (7, .customer)), .issue 1 0 (sampleToken 'A'), .sign 1 100]

def loggedIn : State Token := (run (step id) State.init freshLogin).getD State.init

def firstDraws : Draws := ⟨sampleToken 'B', .customer, 101⟩

theorem loggedIn_rows : loggedIn.tokens.rows =
    (Table.empty.put 1 (sampleToken 'A') (some (TokenRow.issued 7 0 0))).commit 1 := rfl

theorem loggedIn_live : Live id loggedIn (sampleToken 'A') (TokenRow.issued 7 0 0) where
  pattern := by decide +kernel
  cell := by decide +kernel
  unused := rfl
  unrevoked := rfl

theorem loggedIn_ready : Ready id loggedIn 2 firstDraws where
  handler := by decide +kernel
  phase := by decide +kernel
  holds := by
    intro key version hheld
    rw [loggedIn_rows, held_commit_iff, held_put_iff] at hheld
    obtain ⟨hother, ⟨-, howner, -⟩ | ⟨-, hold⟩⟩ := hheld
    · exact absurd howner (by decide)
    · simp [Table.empty, Cell.absent] at hold
  next := by decide +kernel
  jti := by decide +kernel

/-- The INSERT of the next token fails. -/
theorem failedRefresh_spared_insert : ∃ after,
    failedRefresh id loggedIn 2 (sampleToken 'A') firstDraws (.rotation 3) = some after ∧
      after.handlers 2 = .threw ∧ Spared id after (sampleToken 'A') := by
  obtain ⟨after, hrun, hthrew, hspared⟩ := failedRefresh_spared_iff loggedIn_live loggedIn_ready
    (by decide +kernel) (.rotation 3)
  exact ⟨after, hrun, hthrew, hspared.mpr ⟨3, rfl⟩⟩

/-- The client tries the same token again. -/
def secondAttempt : List (Action Token) :=
  [.tick 1000, .refresh 3 (sampleToken 'A'), .statement (.select 3), .statement (.lock 3),
    .statement (.startRevoke 3), .statement (.visit 3 (sampleToken 'A')),
    .statement (.visit 3 (sampleToken 'B')), .statement (.commit 3), .denyFamily 3]

/-- The user cannot be read: the token is spent, and the second attempt revokes the family. -/
theorem readUser_burns : run (step id) State.init freshLogin = some loggedIn ∧ ∃ after finish,
    failedRefresh id loggedIn 2 (sampleToken 'A') firstDraws .readUser = some after ∧
      after.handlers 2 = .threw ∧ ¬ Spared id after (sampleToken 'A') ∧
      run (step id) after secondAttempt = some finish ∧ finish.handlers 3 = .unauthorized ∧
      finish.tokens.calls 3 = .answered (sampleToken 'A')
        (.rejected .reused (some ⟨7, 0⟩) (some 2)) ∧
      0 ∈ finish.tokens.revokedFamilies := by
  refine ⟨rfl, ?_⟩
  obtain ⟨after, hafter, hburnt⟩ : ∃ after, failedRefresh id loggedIn 2 (sampleToken 'A') firstDraws
      .readUser = some after ∧ decide (after.handlers 2 = .threw ∧
        ((after.tokens.rows.committed (sampleToken 'A')).all fun row => row.usedAt.isSome) = true) =
          true := (Option.any_eq_true _ _).mp (by decide +kernel)
  obtain ⟨hthrew, hused⟩ := of_decide_eq_true hburnt
  obtain ⟨finish, hfinish, hanswer⟩ : ∃ finish,
      (failedRefresh id loggedIn 2 (sampleToken 'A') firstDraws .readUser).bind
        (fun after => run (step id) after secondAttempt) = some finish ∧
        decide (finish.handlers 3 = .unauthorized ∧
          finish.tokens.calls 3 = .answered (sampleToken 'A')
            (.rejected .reused (some ⟨7, 0⟩) (some 2)) ∧
          0 ∈ finish.tokens.revokedFamilies) = true :=
    (Option.any_eq_true _ _).mp (by decide +kernel)
  rw [hafter, Option.bind_some] at hfinish
  refine ⟨after, finish, hafter, hthrew, ?_, hfinish, of_decide_eq_true hanswer⟩
  rintro ⟨row, hrow, hunused, -⟩
  have hcurrent : after.tokens.rows.committed (sampleToken 'A') = some row := hrow
  simp [hcurrent, hunused] at hused

end Marketplace.AuthService
