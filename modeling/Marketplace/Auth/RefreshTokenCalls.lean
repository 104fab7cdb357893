import Marketplace.Auth.RefreshTokenLocks

/-!
# What one call can do next

The control flow of a call, read off the statements: `Moves` lists every way from one phase to the
next together with the rows that decide it, and `step_moves` is the inversion of `step` in these
terms. What a call answers is then a question about paths through `Moves`.
-/

namespace Marketplace.RefreshToken

open ReadCommitted ReadCommitted.Table Transition

variable {Hash : Type} [DecidableEq Hash] {hash : Token → Hash} {state after : State Hash}
  {call : Call}

inductive Moves (hash : Token → Hash) (before : State Hash) :
    Action Hash → Phase Hash → Phase Hash → Prop
  | issued (call : Call) (userId : UserId) (familyId : FamilyId) (token : Token) :
      Moves hash before (.issue call userId familyId token) .idle (.issued token familyId)
  | began (call : Call) (token : Token) :
      Moves hash before (.rotate call token) .idle (.began token before.clock)
  | malformed (call : Call) (token : Token) :
      Moves hash before (.rotate call token) .idle
        (.answered token (.rejected .unknown none none))
  | unknown (call : Call) (token : Token) (now : Nat) :
      Moves hash before (.select call) (.began token now) (.rejecting token .unknown none)
  | selecting (call : Call) (token : Token) (now : Nat) :
      Moves hash before (.select call) (.began token now) (.selecting token now)
  | lockedRevoked (call : Call) (token : Token) (now : Nat) (row : TokenRow)
      (hrow : before.rows.committed (hash token) = some row) (hrevoked : row.revokedAt.isSome) :
      Moves hash before (.lock call) (.selecting token now)
        (.rejecting token .revoked (some row.owner))
  | lockedUsed (call : Call) (token : Token) (now : Nat) (row : TokenRow)
      (hrow : before.rows.committed (hash token) = some row) (hunrevoked : row.revokedAt = none)
      (hused : row.usedAt.isSome) :
      Moves hash before (.lock call) (.selecting token now) (.reusing token now row.owner)
  | lockedExpired (call : Call) (token : Token) (now : Nat) (row : TokenRow)
      (hrow : before.rows.committed (hash token) = some row) (hlive : row.Live row.owner)
      (hexpired : row.expired now) :
      Moves hash before (.lock call) (.selecting token now)
        (.rejecting token .expired (some row.owner))
  | lockedLive (call : Call) (token : Token) (now : Nat) (row : TokenRow)
      (hrow : before.rows.committed (hash token) = some row) (hlive : row.Live row.owner) :
      Moves hash before (.lock call) (.selecting token now) (.rotating token now row.owner)
  | marked (call : Call) (token : Token) (now : Nat) (owner : Owner) :
      Moves hash before (.markUsed call) (.rotating token now owner) (.inserting token now owner)
  | inserted (call : Call) (token next : Token) (now : Nat) (owner : Owner) :
      Moves hash before (.insert call next) (.inserting token now owner)
        (.inserted token next now owner)
  | startRevoke (call : Call) (token : Token) (now : Nat) (owner : Owner) :
      Moves hash before (.startRevoke call) (.reusing token now owner)
        (startUpdate before call owner.familyId now (some (token, owner)))
  | revokeFamily (call : Call) (familyId : FamilyId) :
      Moves hash before (.revokeFamily call familyId) .idle
        (startUpdate before call familyId before.clock none)
  | visited (call : Call) (key : Hash) (familyId : FamilyId) (now : Nat)
      (caller : Option (Token × Owner)) (snapshot todo todo' : List Hash)
      (affected affected' : Nat) :
      Moves hash before (.visit call key) (.updating familyId now caller snapshot todo affected)
        (.updating familyId now caller snapshot todo' affected')
  | rejected (call : Call) (token : Token) (reason : RejectReason) (owner : Option Owner) :
      Moves hash before (.commit call) (.rejecting token reason owner)
        (.answered token (.rejected reason owner none))
  | rotated (call : Call) (token next : Token) (now : Nat) (owner : Owner) :
      Moves hash before (.commit call) (.inserted token next now owner)
        (.answered token (.rotated owner next))
  | reused (call : Call) (familyId : FamilyId) (token : Token) (now : Nat) (owner : Owner)
      (snapshot : List Hash) (affected : Nat) :
      Moves hash before (.commit call)
        (.updating familyId now (some (token, owner)) snapshot [] affected)
        (.answered token (.rejected .reused (some owner) (some affected)))
  | revoked (call : Call) (familyId : FamilyId) (now : Nat) (snapshot : List Hash)
      (affected : Nat) :
      Moves hash before (.commit call) (.updating familyId now none snapshot [] affected)
        (.revoked familyId affected)
  | aborted (call : Call) (phase : Phase Hash) (hopen : phase.isOpen) :
      Moves hash before (.abort call) phase .threw

omit [DecidableEq Hash] in
/-- What `rotate` decides on a row is one of the four moves, and never a rotation of a row that is
used or revoked. -/
theorem moves_decide {token : Token} {now : Nat} {row : TokenRow}
    (hrow : state.rows.committed (hash token) = some row) :
    Moves hash state (.lock call) (.selecting token now) (decide token now row) := by
  unfold decide
  split_ifs with hrevoked hused hexpired
  · exact .lockedRevoked call token now row hrow hrevoked
  · exact .lockedUsed call token now row hrow (by simpa using hrevoked) hused
  · exact .lockedExpired call token now row hrow
      ⟨by simpa using hused, by simpa using hrevoked, rfl⟩ hexpired
  · exact .lockedLive call token now row hrow ⟨by simpa using hused, by simpa using hrevoked, rfl⟩

/-- The caller moves and everybody else stays. -/
theorem step_moves {action : Action Hash} (hinv : LockInv hash state.rows state.calls)
    (hstep : step hash state action = some after) :
    (∀ call, action.caller ≠ some call → after.calls call = state.calls call) ∧
    ∀ call, action.caller = some call →
      Moves hash state action (state.calls call) (after.calls call) := by
  -- all statements but the clock end in `goto`: one phase to check, the others are not touched
  have hgoto : ∀ (mover : Call) (phase : Phase Hash), action.caller = some mover →
      after.calls = Function.update state.calls mover phase →
      Moves hash state action (state.calls mover) phase →
      (∀ call, action.caller ≠ some call → after.calls call = state.calls call) ∧
      ∀ call, action.caller = some call →
        Moves hash state action (state.calls call) (after.calls call) := by
    intro mover phase hmover hcalls hmoves
    rw [hcalls]
    refine ⟨fun call hcall => Function.update_of_ne ?_ _ _, fun call hcall => ?_⟩
    · rintro rfl
      exact hcall hmover
    · rw [hmover] at hcall
      cases hcall
      rwa [Function.update_self]
  cases action with
  | tick elapsed =>
      cases hstep
      exact ⟨fun _ _ => rfl, nofun⟩
  | issue call userId familyId token =>
      simp only [step, issue] at hstep
      split at hstep
      case isFalse => cases hstep
      rename_i hguard
      cases hstep
      refine hgoto call _ rfl rfl ?_
      rw [hguard.1]
      exact .issued call userId familyId token
  | rotate call token =>
      simp only [step, rotate] at hstep
      split at hstep
      case h_2 => cases hstep
      rename_i hphase
      split at hstep <;> cases hstep <;> refine hgoto call _ rfl rfl ?_ <;> rw [hphase]
      · exact .began call token
      · exact .malformed call token
  | select call =>
      simp only [step, select] at hstep
      split at hstep
      case h_2 => cases hstep
      rename_i token now hphase
      split at hstep <;> cases hstep <;> refine hgoto call _ rfl rfl ?_ <;> rw [hphase]
      · exact .selecting call token now
      · exact .unknown call token now
  | lock call =>
      obtain ⟨token, now, row, hphase, hrow, -, rfl⟩ := lockInv_lock hinv hstep
      refine hgoto call _ rfl rfl ?_
      rw [hphase]
      exact moves_decide hrow
  | markUsed call =>
      simp only [step, markUsed] at hstep
      split at hstep
      case h_2 => cases hstep
      rename_i token now owner hphase
      split at hstep <;> cases hstep
      refine hgoto call _ rfl rfl ?_
      rw [hphase]
      exact .marked call token now owner
  | insert call next =>
      simp only [step, insert] at hstep
      split at hstep
      case h_2 => cases hstep
      rename_i token now owner hphase
      split at hstep
      case h_2 => cases hstep
      split at hstep <;> cases hstep
      refine hgoto call _ rfl rfl ?_
      rw [hphase]
      exact .inserted call token next now owner
  | startRevoke call =>
      simp only [step, startRevoke] at hstep
      split at hstep
      case h_2 => cases hstep
      rename_i token now owner hphase
      cases hstep
      refine hgoto call _ rfl rfl ?_
      rw [hphase]
      exact .startRevoke call token now owner
  | revokeFamily call familyId =>
      simp only [step, revokeFamily] at hstep
      split at hstep
      case h_2 => cases hstep
      rename_i hphase
      cases hstep
      refine hgoto call _ rfl rfl ?_
      rw [hphase]
      exact .revokeFamily call familyId
  | visit call key =>
      simp only [step, visit] at hstep
      split at hstep
      case h_2 => cases hstep
      rename_i familyId now caller snapshot todo affected hphase
      split at hstep
      case isFalse => cases hstep
      split at hstep <;> cases hstep
      refine hgoto call _ rfl rfl ?_
      rw [hphase]
      exact .visited call key familyId now caller snapshot _ _ _ _
  | commit call =>
      simp only [step, commit] at hstep
      split at hstep
      · rename_i token reason owner hphase
        cases hstep
        refine hgoto call _ rfl rfl ?_
        rw [hphase]
        exact .rejected call token reason owner
      · rename_i token next now owner hphase
        cases hstep
        refine hgoto call _ rfl rfl ?_
        rw [hphase]
        exact .rotated call token next now owner
      · rename_i familyId now token owner snapshot affected hphase
        cases hstep
        refine hgoto call _ rfl rfl ?_
        rw [hphase]
        exact .reused call familyId token now owner snapshot affected
      · rename_i familyId now snapshot affected hphase
        cases hstep
        refine hgoto call _ rfl rfl ?_
        rw [hphase]
        exact .revoked call familyId now snapshot affected
      · cases hstep
  | abort call =>
      simp only [step, abort] at hstep
      split at hstep
      case isFalse => cases hstep
      rename_i hopen
      cases hstep
      exact hgoto call _ rfl rfl (.aborted call _ hopen)

/-- Only the clock moves the clock. -/
theorem clock_le_of_step {action : Action Hash} (hinv : LockInv hash state.rows state.calls)
    (hstep : step hash state action = some after) : state.clock ≤ after.clock := by
  cases action with
  | tick elapsed =>
      cases hstep
      exact Nat.le_add_right _ _
  | issue call userId familyId token =>
      simp only [step, issue] at hstep
      split at hstep <;> cases hstep
      exact Nat.le_refl _
  | rotate call token =>
      simp only [step, rotate] at hstep
      split at hstep
      case h_2 => cases hstep
      split at hstep <;> cases hstep <;> exact Nat.le_refl _
  | select call =>
      exact Nat.le_of_eq (congrArg State.clock (lockInv_select hinv hstep).2).symm
  | lock call =>
      obtain ⟨_, _, _, -, -, -, rfl⟩ := lockInv_lock hinv hstep
      exact Nat.le_refl _
  | markUsed call =>
      exact Nat.le_of_eq (congrArg State.clock (lockInv_markUsed hinv hstep).2.1).symm
  | insert call next =>
      exact Nat.le_of_eq (congrArg State.clock (lockInv_insert hinv hstep).2.1).symm
  | startRevoke call =>
      exact Nat.le_of_eq (congrArg State.clock (lockInv_startRevoke hinv hstep).2).symm
  | revokeFamily call familyId =>
      exact Nat.le_of_eq (congrArg State.clock (lockInv_revokeFamily hinv hstep).2).symm
  | visit call key =>
      exact Nat.le_of_eq (congrArg State.clock (lockInv_visit hinv hstep).2.1).symm
  | commit call =>
      simp only [step, commit] at hstep
      split at hstep <;> cases hstep <;> exact Nat.le_refl _
  | abort call =>
      exact Nat.le_of_eq (congrArg State.clock (lockInv_abort hinv hstep).2.1).symm

/-- A phase that a step brings about was there before, or its caller moved into it. -/
theorem step_phase {action : Action Hash} {phase : Phase Hash}
    (hinv : LockInv hash state.rows state.calls) (hstep : step hash state action = some after)
    (hphase : after.calls call = phase) :
    state.calls call = phase ∨
      action.caller = some call ∧ Moves hash state action (state.calls call) phase := by
  obtain ⟨hothers, hmoves⟩ := step_moves hinv hstep
  by_cases hcaller : action.caller = some call
  · exact .inr ⟨hcaller, hphase ▸ hmoves call hcaller⟩
  · exact .inl ((hothers call hcaller).symm.trans hphase)

/-- Who takes no step stays where it is. -/
theorem calls_of_runWithin {ok : State Hash → Action Hash → Prop}
    [∀ state action, Decidable (ok state action)] {actions : List (Action Hash)}
    (hinv : LockInv hash state.rows state.calls)
    (hrun : runWithin (step hash) ok state actions = some after)
    (hcall : ∀ action ∈ actions, action.caller ≠ some call) :
    after.calls call = state.calls call := by
  induction actions generalizing state with
  | nil =>
      cases hrun
      rfl
  | cons action rest ih =>
      rw [runWithin] at hrun
      split at hrun
      case isFalse => cases hrun
      obtain ⟨next, hstep, hrest⟩ := Option.bind_eq_some_iff.mp hrun
      have hsame := (step_moves hinv hstep).1 call (hcall action List.mem_cons_self)
      rw [ih (step_effect hinv hstep).1 hrest fun other hother =>
        hcall other (List.mem_cons_of_mem action hother), hsame]

end Marketplace.RefreshToken
