import Marketplace.Auth.RefreshTokenFamily

/-!
# A used token that comes back

A rotation that finds its token used can only answer `reused` or throw, and what it revokes is at
least every row of the family that was committed when its UPDATE took its snapshot.
-/

namespace Marketplace.RefreshToken

open ReadCommitted ReadCommitted.Table Transition

variable {Hash : Type} {hash : Token → Hash} {state after : State Hash} {call : Call}
  {action : Action Hash} {token : Token} {owner : Owner}

/-- On the way to the answer `reused` for a token of `owner`, or aborted. -/
def OnReuse (token : Token) (owner : Owner) : Phase Hash → Prop
  | .reusing token' _ owner' => token' = token ∧ owner' = owner
  | .updating familyId _ caller _ _ _ => familyId = owner.familyId ∧ caller = some (token, owner)
  | .answered token' result => token' = token ∧
      ∃ revokedRows, result = .rejected .reused (some owner) (some revokedRows)
  | .threw => True
  | _ => False

/-- The UPDATE with this snapshot is running, or the call that ran it has returned and the rows of
the snapshot are revoked, or it was aborted. -/
def Revokes (snapshot : List Hash) (rows : Table Call Hash TokenRow) : Phase Hash → Prop
  | .updating _ _ _ snapshot' _ _ => snapshot' = snapshot
  | .answered _ _ | .revoked _ _ => ∀ key ∈ snapshot, ∃ row,
      rows.committed key = some row ∧ row.revokedAt.isSome
  | .threw => True
  | _ => False

theorem revokes_grows {snapshot : List Hash} {rows after : Table Call Hash TokenRow}
    {phase : Phase Hash} (hrevokes : Revokes snapshot rows phase) (hgrows : Grows rows after) :
    Revokes snapshot after phase := by
  have hkept : (∀ key ∈ snapshot, ∃ row, rows.committed key = some row ∧ row.revokedAt.isSome) →
      ∀ key ∈ snapshot, ∃ row, after.committed key = some row ∧ row.revokedAt.isSome := by
    intro hrows key hkey
    obtain ⟨row, hrow, hrevoked⟩ := hrows key hkey
    obtain ⟨row', hrow', hevolves⟩ := hgrows key row hrow
    exact ⟨row', hrow', hevolves.revoked hrevoked⟩
  cases phase with
  | answered token result => exact hkept hrevokes
  | revoked familyId affected => exact hkept hrevokes
  | _ => exact hrevokes

/-- The invariants of a family, in the words of the table `refresh_tokens`. -/
structure SingleChain (state : State Hash) : Prop where
  shared : ∀ key other row row', state.rows.committed key = some row →
    state.rows.committed other = some row' → row.familyId = row'.familyId →
    row.userId = row'.userId ∧ row.familyStartedAt = row'.familyStartedAt
  unused : ∀ familyId, state.rows.count (unusedIn familyId) ≤ 1
  counted : ∀ key row, state.rows.committed key = some row →
    state.rows.count (inFamily row.familyId) =
      1 + (state.returned.filter (rotatedIn row.familyId)).length
  bounded : ∀ key row, state.rows.committed key = some row →
    row.expiresAt ≤ row.familyStartedAt + seconds refreshAbsoluteTtlSec ∧
    row.expiresAt ≤ row.createdAt + seconds refreshTtlSec
  rotatedOnce : RotatedOnce state.calls

variable [DecidableEq Hash]

/-- What a rotation answers when the row it has just locked is used and not revoked, and which rows
are revoked when it returns. -/
def ReuseDetected (hash : Token → Hash) (state : State Hash) : Prop :=
  ∀ call token now row locked, state.calls call = .selecting token now →
    state.rows.committed (hash token) = some row → row.usedAt.isSome → row.revokedAt = none →
    step hash state (.lock call) = some locked →
    ∀ later, Reachable (step hash) locked later → OnReuse token row.owner (later.calls call) ∧
      ∀ started final, step hash later (.startRevoke call) = some started →
        Reachable (step hash) started final → ∀ token' result,
        final.calls call = .answered token' result →
        ∀ key row', later.rows.committed key = some row' → row'.familyId = row.familyId →
          ∃ row'', final.rows.committed key = some row'' ∧ row''.revokedAt.isSome

omit [DecidableEq Hash] in
theorem singleChain_of_inv (hinv : Inv hash state) : SingleChain state where
  shared := hinv.chain.shared
  unused familyId := by
    refine count_le_one fun key other hkey hother => ?_
    obtain ⟨row, hrow, hunused⟩ := mem_matching.mp hkey
    obtain ⟨row', hrow', hunused'⟩ := mem_matching.mp hother
    simp only [unusedIn, Bool.and_eq_true, decide_eq_true_eq, Option.isNone_iff_eq_none] at *
    exact hinv.chain.unused key other row row' hrow hrow' (hunused.1.trans hunused'.1.symm)
      hunused.2 hunused'.2
  counted := hinv.chain.counted
  bounded := hinv.chain.bounded
  rotatedOnce := hinv.once

omit [DecidableEq Hash] in
theorem Moves.onReuse {phase phase' : Phase Hash} (hmoves : Moves hash state action phase phase')
    (hreuse : OnReuse token owner phase) : OnReuse token owner phase' := by
  cases hmoves with
  | startRevoke mover token' now owner' =>
      obtain ⟨rfl, rfl⟩ := hreuse
      exact ⟨rfl, rfl⟩
  | visited mover key familyId now caller snapshot todo todo' affected affected' => exact hreuse
  | reused mover familyId token' now owner' snapshot affected =>
      obtain ⟨-, hcaller⟩ := hreuse
      cases hcaller
      exact ⟨rfl, affected, rfl⟩
  | revoked mover familyId now snapshot affected => cases hreuse.2
  | aborted mover phase hopen => trivial
  | _ => exact hreuse.elim

theorem onReuse_step (hinv : Inv hash state) (hstep : step hash state action = some after)
    (hreuse : OnReuse token owner (state.calls call)) : OnReuse token owner (after.calls call) := by
  rcases step_phase hinv.locks hstep rfl with hsame | ⟨-, hmoves⟩
  · rwa [← hsame]
  · exact hmoves.onReuse hreuse

theorem revokes_step {snapshot : List Hash} (hinv : Inv hash state)
    (hstep : step hash state action = some after)
    (hrevokes : Revokes snapshot state.rows (state.calls call)) :
    Revokes snapshot after.rows (after.calls call) := by
  have hgrows := (step_effect hinv.locks hstep).2.grows
  rcases step_phase hinv.locks hstep rfl with hsame | ⟨hcaller, hmoves⟩
  · rw [← hsame]
    exact revokes_grows hrevokes hgrows
  · generalize hbefore : state.calls call = phase at hmoves hrevokes
    generalize after.calls call = phase' at hmoves ⊢
    cases hmoves with
    | visited mover key familyId now caller seen todo todo' affected affected' => exact hrevokes
    | reused mover familyId token now owner seen affected =>
        cases hcaller
        cases hrevokes
        exact revoked_of_commit hinv.locks hbefore hstep
    | revoked mover familyId now seen affected =>
        cases hcaller
        cases hrevokes
        exact revoked_of_commit hinv.locks hbefore hstep
    | aborted mover phase hopen => trivial
    | malformed => exact hrevokes.elim
    | rejected => exact hrevokes.elim
    | rotated => exact hrevokes.elim
    | _ => exact hrevokes.elim

theorem onReuse_reach {later : State Hash} (hinv : Inv hash state)
    (hreuse : OnReuse token owner (state.calls call)) (hreach : Reachable (step hash) state later) :
    OnReuse token owner (later.calls call) :=
  hreach.invariant (fun later => OnReuse token owner (later.calls call)) hreuse
    fun _ _ _ hbefore hreuse _ hstep => onReuse_step (hinv.reach hbefore) hstep hreuse

theorem revokes_reach {snapshot : List Hash} {later : State Hash} (hinv : Inv hash state)
    (hrevokes : Revokes snapshot state.rows (state.calls call))
    (hreach : Reachable (step hash) state later) :
    Revokes snapshot later.rows (later.calls call) :=
  hreach.invariant (fun later => Revokes snapshot later.rows (later.calls call)) hrevokes
    fun _ _ _ hbefore hrevokes _ hstep => revokes_step (hinv.reach hbefore) hstep hrevokes

/-- The UPDATE of a reuse sees every committed row of the family. -/
theorem revokes_startRevoke {started : State Hash} (hinv : Inv hash state)
    (hreuse : OnReuse token owner (state.calls call))
    (hstep : step hash state (.startRevoke call) = some started) :
    ∃ snapshot, Revokes snapshot started.rows (started.calls call) ∧
      ∀ key row, state.rows.committed key = some row → row.familyId = owner.familyId →
        key ∈ snapshot := by
  simp only [step, startRevoke] at hstep
  split at hstep
  case h_2 => cases hstep
  rename_i token' now owner' hphase
  cases hstep
  rw [hphase] at hreuse
  obtain ⟨-, rfl⟩ := hreuse
  refine ⟨_, by simp only [State.goto, Function.update_self]; rfl, fun key row hrow hfamily => ?_⟩
  refine mem_scan.mpr ⟨row, ?_, decide_eq_true hfamily⟩
  rw [hinv.locks.view_reusing hphase, hrow]

theorem reuseDetected_of_inv (hinv : Inv hash state) : ReuseDetected hash state := by
  intro call token now row locked hphase hrow hused hunrevoked hlock later hlater
  have hreuse : OnReuse token row.owner (locked.calls call) := by
    obtain ⟨token', now', row', hphase', hrow', -, rfl⟩ := lockInv_lock hinv.locks hlock
    rw [hphase] at hphase'
    cases hphase'
    rw [hrow] at hrow'
    cases hrow'
    simp [decide, hunrevoked, hused, OnReuse]
  have hinvLocked := hinv.step hlock
  have hinvLater := hinvLocked.reach hlater
  have hreuseLater := onReuse_reach hinvLocked hreuse hlater
  refine ⟨hreuseLater, fun started final hstarted hfinal token' result hanswered key row' hrow'
    hfamily => ?_⟩
  obtain ⟨snapshot, hrevokes, hseen⟩ := revokes_startRevoke hinvLater hreuseLater hstarted
  have hdone := revokes_reach (hinvLater.step hstarted) hrevokes hfinal
  rw [hanswered] at hdone
  exact hdone key (hseen key row' hrow' hfamily)

/-- Rotation keeps every family a single live chain, whatever runs in parallel, and a token that
comes back after its use is answered `reused`. -/
theorem rotation_singleChain (hreach : Reachable (step hash) State.init state) :
    SingleChain state ∧ ReuseDetected hash state :=
  have hinv := inv_init.reach hreach
  ⟨singleChain_of_inv hinv, reuseDetected_of_inv hinv⟩

def sampleToken (char : Char) : Token := List.replicate 43 char

/-- Issue a token, rotate it, and present it again. -/
def reuseTrace : List (Action Token) :=
  [.issue 1 7 0 (sampleToken 'A'),
    .rotate 2 (sampleToken 'A'), .select 2, .lock 2, .markUsed 2, .insert 2 (sampleToken 'B'),
    .commit 2,
    .rotate 3 (sampleToken 'A'), .select 3, .lock 3, .startRevoke 3,
    .visit 3 (sampleToken 'A'), .visit 3 (sampleToken 'B'), .commit 3]

theorem rotation_singleChain_reuseTrace :
    ∃ state : State Token, Reachable (step id) State.init state ∧
      state.calls 3 = .answered (sampleToken 'A') (.rejected .reused (some ⟨7, 0⟩) (some 2)) ∧
      SingleChain state ∧ ReuseDetected id state := by
  obtain ⟨state, hreach, hanswer⟩ : ∃ state : State Token, Reachable (step id) State.init state ∧
      Decidable.decide (state.calls 3 = .answered (sampleToken 'A')
        (.rejected .reused (some ⟨7, 0⟩) (some 2))) = true :=
    exists_reach_of_runWithin reuseTrace (by decide +kernel)
  exact ⟨state, hreach, of_decide_eq_true hanswer, rotation_singleChain hreach⟩

end Marketplace.RefreshToken
