import Marketplace.Auth.RefreshTokenCalls

/-!
# A family is a single live chain

Invariants of the committed rows of a family, each proved from the effects of a step: a family is
issued with one row, a rotation replaces its unused row by the next one, and every other step
changes nothing but `revoked_at`.
-/

namespace Marketplace.RefreshToken

open ReadCommitted ReadCommitted.Table Transition

variable {Hash : Type} {hash : Token → Hash} {state after : State Hash} {call : Call}
  {action : Action Hash}

def inFamily (familyId : FamilyId) (row : TokenRow) : Bool := row.familyId = familyId

def unusedIn (familyId : FamilyId) (row : TokenRow) : Bool :=
  row.familyId = familyId && row.usedAt.isNone

/-- A call that rotated a token of the family. -/
def rotatedIn (familyId : FamilyId) : Token × RotationResult → Bool
  | (_, .rotated owner _) => owner.familyId = familyId
  | (_, .rejected _ _ _) => false

/-- A call that rotated the token. -/
def rotationOf (token : Token) (entry : Token × RotationResult) : Bool :=
  entry.1 = token && entry.2.isRotated

/-- Nothing but `revoked_at` changed, and no call that returned has rotated. -/
structure Stamped (before after : State Hash) : Prop where
  rows : ∀ key row, after.rows.committed key = some row → ∃ old stamp,
    before.rows.committed key = some old ∧ row = { old with revokedAt := stamp }
  kept : ∀ key old, before.rows.committed key = some old → ∃ stamp,
    after.rows.committed key = some { old with revokedAt := stamp }
  families : ∀ familyId ∈ before.families, familyId ∈ after.families
  returned : AddsRejected before.returned after.returned

theorem stamped_of_unchanged
    (hrows : ∀ key, after.rows.committed key = state.rows.committed key)
    (hfamilies : ∀ familyId ∈ state.families, familyId ∈ after.families)
    (hreturned : AddsRejected state.returned after.returned) : Stamped state after where
  rows key row hrow := ⟨row, row.revokedAt, (hrows key).symm.trans hrow, rfl⟩
  kept key old hold := ⟨old.revokedAt, (hrows key).trans hold⟩
  families := hfamilies
  returned := hreturned

theorem stamped_of_revoked {familyId : FamilyId} {now : Nat} {snapshot : List Hash}
    (hrows : ∀ key, after.rows.committed key = state.rows.committed key ∨
      (key ∈ snapshot ∧ ∃ row, state.rows.committed key = some row ∧ row.familyId = familyId ∧
        after.rows.committed key = some (row.revoke now)))
    (hfamilies : after.families = state.families)
    (hreturned : AddsRejected state.returned after.returned) : Stamped state after where
  rows key row hrow := by
    rcases hrows key with hsame | ⟨-, old, hold, -, hafter⟩
    · exact ⟨row, row.revokedAt, hsame.symm.trans hrow, rfl⟩
    · rw [hrow] at hafter
      cases hafter
      exact ⟨old, some now, hold, rfl⟩
  kept key old hold := by
    rcases hrows key with hsame | ⟨-, row, hrow, -, hafter⟩
    · exact ⟨old.revokedAt, hsame.trans hold⟩
    · rw [hold] at hrow
      cases hrow
      exact ⟨some now, hafter⟩
  families := by simp [hfamilies]
  returned := hreturned

theorem AddsRejected.filter_eq {before after : List (Token × RotationResult)}
    {cond : Token × RotationResult → Bool} (hadds : AddsRejected before after)
    (hcond : ∀ token reason owner revokedRows,
      cond (token, .rejected reason owner revokedRows) = false) :
    after.filter cond = before.filter cond := by
  rcases hadds with rfl | ⟨token, reason, owner, revokedRows, rfl⟩
  · rfl
  · simp [hcond]

theorem AddsRejected.mem_of_rotated {before after : List (Token × RotationResult)}
    {entry : Token × RotationResult} (hadds : AddsRejected before after) (hentry : entry ∈ after)
    (hrotated : entry.2.isRotated = true) : entry ∈ before := by
  rcases hadds with rfl | ⟨token, reason, owner, revokedRows, rfl⟩
  · exact hentry
  · rw [List.mem_append, List.mem_singleton] at hentry
    rcases hentry with hold | rfl
    · exact hold
    · cases hrotated

theorem isRotated_of_rotatedIn {familyId : FamilyId} {entry : Token × RotationResult}
    (hentry : rotatedIn familyId entry = true) : entry.2.isRotated = true := by
  obtain ⟨token, result⟩ := entry
  cases result with
  | rotated owner next => rfl
  | rejected reason owner revokedRows => cases hentry

/-! ### Family ids -/

/-- The family ids in use are recorded, so a fresh one belongs to nothing. -/
structure KnownInv (state : State Hash) : Prop where
  row : ∀ key row, state.rows.committed key = some row → row.familyId ∈ state.families
  updating : ∀ call familyId now caller snapshot todo affected,
    state.calls call = .updating familyId now caller snapshot todo affected →
    familyId ∈ state.families
  revoked : ∀ familyId ∈ state.revokedFamilies, familyId ∈ state.families
  rotated : ∀ familyId, ∀ entry ∈ state.returned, rotatedIn familyId entry = true →
    familyId ∈ state.families

theorem knownInv_init : KnownInv (State.init : State Hash) :=
  ⟨fun _ _ hrow => (by cases hrow), fun _ _ _ _ _ _ _ hphase => (by cases hphase),
    fun _ hfamily => (by cases hfamily), fun _ _ hentry => (by cases hentry)⟩

variable [DecidableEq Hash]

theorem Effect.families_mono (heffect : Effect hash state action after) :
    ∀ familyId ∈ state.families, familyId ∈ after.families := by
  cases heffect with
  | unchanged hrows hfamilies => exact hfamilies
  | issued userId familyId token hfresh habsent hrows hfamilies =>
      rw [hfamilies]
      exact fun _ => List.mem_cons_of_mem _
  | rotated token next row now owner hrow hlive habsent hused hnext hrows hfamilies =>
      rw [hfamilies]
      exact fun _ => id
  | revoked call familyId now caller snapshot affected haction hphase hrows hsnapshot hfamilies =>
      rw [hfamilies]
      exact fun _ => id

theorem KnownInv.step (hinv : KnownInv state) (hlocks : LockInv hash state.rows state.calls)
    (hstep : step hash state action = some after) : KnownInv after := by
  have heffect := (step_effect hlocks hstep).2
  have hmono := heffect.families_mono
  refine ⟨?_, ?_, ?_, ?_⟩
  · intro key row hrow
    cases heffect with
    | unchanged hrows => exact hmono _ (hinv.row key row ((hrows key).symm.trans hrow))
    | issued userId familyId token hfresh habsent hrows hfamilies =>
        rw [hrows] at hrow
        split at hrow
        · cases hrow
          rw [hfamilies]
          exact List.mem_cons_self
        · exact hmono _ (hinv.row key row hrow)
    | rotated token next old now owner hold hlive habsent hused hnext hrows =>
        have hfamily := hmono _ (hinv.row _ old hold)
        by_cases htoken : key = hash token
        · subst htoken
          rw [hused] at hrow
          cases hrow
          exact hfamily
        · by_cases hkey : key = hash next
          · subst hkey
            rw [hnext] at hrow
            cases hrow
            exact hfamily
          · exact hmono _ (hinv.row key row ((hrows key htoken hkey).symm.trans hrow))
    | revoked call familyId now caller snapshot affected haction hphase hrows hsnapshot hfamilies
        hreturned =>
        obtain ⟨old, stamp, hold, rfl⟩ :=
          (stamped_of_revoked hrows hfamilies hreturned).rows key row hrow
        exact hmono _ (hinv.row key old hold)
  · intro call familyId now caller snapshot todo affected hphase
    rcases step_phase hlocks hstep hphase with hbefore | ⟨hcaller, hmoves⟩
    · exact hmono _ (hinv.updating call familyId now caller snapshot todo affected hbefore)
    · generalize hbefore : state.calls call = phase at hmoves
      cases hmoves with
      | startRevoke mover token now owner =>
          cases hcaller
          have hok := hlocks.phase call
          rw [hbefore] at hok
          obtain ⟨row, hcell, howner⟩ := hok
          have hrow : state.rows.committed (hash token) = some row := congrArg Cell.committed hcell
          rw [← howner]
          exact hmono _ (hinv.row _ row hrow)
      | revokeFamily mover familyId =>
          cases hcaller
          obtain ⟨-, hafter⟩ := lockInv_revokeFamily hlocks hstep
          rw [hafter]
          exact List.mem_cons_self
      | visited mover key familyId now caller snapshot todo todo' affected affected' =>
          exact hmono _ (hinv.updating call familyId now caller snapshot todo affected hbefore)
  · intro familyId hfamily
    cases heffect with
    | unchanged hrows hfamilies hreturned hrevoked =>
        rw [hrevoked] at hfamily
        exact hmono _ (hinv.revoked familyId hfamily)
    | issued userId issuedId token hfresh habsent hrows hfamilies hreturned hrevoked =>
        rw [hrevoked] at hfamily
        exact hmono _ (hinv.revoked familyId hfamily)
    | rotated token next old now owner hold hlive habsent hused hnext hrows hfamilies hreturned
        hrevoked =>
        rw [hrevoked] at hfamily
        exact hmono _ (hinv.revoked familyId hfamily)
    | revoked call revokedId now caller snapshot affected haction hphase hrows hsnapshot hfamilies
        hreturned hrevoked =>
        rw [hrevoked, List.mem_cons] at hfamily
        rcases hfamily with rfl | hold
        · exact hmono _ (hinv.updating call familyId now caller snapshot [] affected hphase)
        · exact hmono _ (hinv.revoked familyId hold)
  · intro familyId entry hentry hrotated
    have hresult := isRotated_of_rotatedIn hrotated
    cases heffect with
    | unchanged hrows hfamilies hreturned =>
        exact hmono _
          (hinv.rotated familyId entry (hreturned.mem_of_rotated hentry hresult) hrotated)
    | issued userId issuedId token hfresh habsent hrows hfamilies hreturned =>
        rw [hreturned] at hentry
        exact hmono _ (hinv.rotated familyId entry hentry hrotated)
    | rotated token next old now owner hold hlive habsent hused hnext hrows hfamilies hreturned =>
        rw [hreturned, List.mem_append, List.mem_singleton] at hentry
        rcases hentry with hentry | rfl
        · exact hmono _ (hinv.rotated familyId entry hentry hrotated)
        · have hfamily : owner.familyId = familyId := of_decide_eq_true hrotated
          rw [← hfamily, ← hlive.owner]
          exact hmono _ (hinv.row _ old hold)
    | revoked call revokedId now caller snapshot affected haction hphase hrows hsnapshot hfamilies
        hreturned =>
        exact hmono _
          (hinv.rotated familyId entry (hreturned.mem_of_rotated hentry hresult) hrotated)

/-! ### The chain -/

/-- What a family of committed rows looks like. -/
structure ChainInv (hash : Token → Hash) (state : State Hash) : Prop where
  shared : ∀ key other row row', state.rows.committed key = some row →
    state.rows.committed other = some row' → row.familyId = row'.familyId →
    row.userId = row'.userId ∧ row.familyStartedAt = row'.familyStartedAt
  unused : ∀ key other row row', state.rows.committed key = some row →
    state.rows.committed other = some row' → row.familyId = row'.familyId →
    row.usedAt = none → row'.usedAt = none → key = other
  bounded : ∀ key row, state.rows.committed key = some row →
    row.expiresAt ≤ row.familyStartedAt + seconds refreshAbsoluteTtlSec ∧
    row.expiresAt ≤ row.createdAt + seconds refreshTtlSec
  counted : ∀ key row, state.rows.committed key = some row →
    state.rows.count (inFamily row.familyId) =
      1 + (state.returned.filter (rotatedIn row.familyId)).length
  used : ∀ entry ∈ state.returned, entry.2.isRotated = true →
    ∃ row, state.rows.committed (hash entry.1) = some row ∧ row.usedAt.isSome
  once : ∀ token, (state.returned.filter (rotationOf token)).length ≤ 1

omit [DecidableEq Hash] in
theorem chainInv_init : ChainInv hash (State.init : State Hash) where
  shared _ _ _ _ hrow := by cases hrow
  unused _ _ _ _ hrow := by cases hrow
  bounded _ _ hrow := by cases hrow
  counted _ _ hrow := by cases hrow
  used _ hentry := by cases hentry
  once _ := Nat.zero_le 1

omit [DecidableEq Hash] in
theorem Stamped.count_inFamily (hstamped : Stamped state after) (familyId : FamilyId) :
    after.rows.count (inFamily familyId) = state.rows.count (inFamily familyId) := by
  refine count_congr fun key => ?_
  rw [mem_matching, mem_matching]
  constructor
  · rintro ⟨row, hrow, hfamily⟩
    obtain ⟨old, stamp, hold, rfl⟩ := hstamped.rows key row hrow
    exact ⟨old, hold, hfamily⟩
  · rintro ⟨old, hold, hfamily⟩
    obtain ⟨stamp, hrow⟩ := hstamped.kept key old hold
    exact ⟨_, hrow, hfamily⟩

omit [DecidableEq Hash] in
theorem ChainInv.of_stamped (hinv : ChainInv hash state) (hstamped : Stamped state after) :
    ChainInv hash after where
  shared key other row row' hrow hrow' hfamily := by
    obtain ⟨old, stamp, hold, rfl⟩ := hstamped.rows key row hrow
    obtain ⟨old', stamp', hold', rfl⟩ := hstamped.rows other row' hrow'
    exact hinv.shared key other old old' hold hold' hfamily
  unused key other row row' hrow hrow' hfamily hunused hunused' := by
    obtain ⟨old, stamp, hold, rfl⟩ := hstamped.rows key row hrow
    obtain ⟨old', stamp', hold', rfl⟩ := hstamped.rows other row' hrow'
    exact hinv.unused key other old old' hold hold' hfamily hunused hunused'
  bounded key row hrow := by
    obtain ⟨old, stamp, hold, rfl⟩ := hstamped.rows key row hrow
    exact hinv.bounded key old hold
  counted key row hrow := by
    obtain ⟨old, stamp, hold, rfl⟩ := hstamped.rows key row hrow
    rw [hstamped.count_inFamily, hstamped.returned.filter_eq fun _ _ _ _ => rfl]
    exact hinv.counted key old hold
  used entry hentry hrotated := by
    obtain ⟨old, hold, hused⟩ :=
      hinv.used entry (hstamped.returned.mem_of_rotated hentry hrotated) hrotated
    obtain ⟨stamp, hrow⟩ := hstamped.kept _ old hold
    exact ⟨_, hrow, hused⟩
  once token := by
    rw [hstamped.returned.filter_eq fun _ _ _ _ => by simp [rotationOf, RotationResult.isRotated]]
    exact hinv.once token

theorem ChainInv.of_issued {userId : UserId} {familyId : FamilyId} {token : Token}
    (hinv : ChainInv hash state) (hknown : KnownInv state) (hfresh : familyId ∉ state.families)
    (habsent : state.rows.committed (hash token) = none)
    (hrows : ∀ key, after.rows.committed key =
      if key = hash token then some (TokenRow.issued userId familyId state.clock)
      else state.rows.committed key)
    (hreturned : after.returned = state.returned) : ChainInv hash after := by
  have hsplit : ∀ key row, after.rows.committed key = some row →
      (key = hash token ∧ row = TokenRow.issued userId familyId state.clock) ∨
      (state.rows.committed key = some row ∧ row.familyId ≠ familyId) := by
    intro key row hrow
    rw [hrows] at hrow
    split at hrow
    · rename_i hkey
      cases hrow
      exact .inl ⟨hkey, rfl⟩
    · refine .inr ⟨hrow, ?_⟩
      rintro rfl
      exact hfresh (hknown.row key row hrow)
  have hold : ∀ key row, state.rows.committed key = some row →
      after.rows.committed key = some row := by
    intro key row hrow
    rw [hrows, if_neg, hrow]
    rintro rfl
    rw [habsent] at hrow
    cases hrow
  refine ⟨?_, ?_, ?_, ?_, ?_, ?_⟩
  · intro key other row row' hrow hrow' hfamily
    rcases hsplit key row hrow with ⟨-, rfl⟩ | ⟨hbefore, hne⟩ <;>
      rcases hsplit other row' hrow' with ⟨-, rfl⟩ | ⟨hbefore', hne'⟩
    · exact ⟨rfl, rfl⟩
    · exact absurd hfamily.symm hne'
    · exact absurd hfamily hne
    · exact hinv.shared key other row row' hbefore hbefore' hfamily
  · intro key other row row' hrow hrow' hfamily hunused hunused'
    rcases hsplit key row hrow with ⟨hkey, rfl⟩ | ⟨hbefore, hne⟩ <;>
      rcases hsplit other row' hrow' with ⟨hkey', rfl⟩ | ⟨hbefore', hne'⟩
    · exact hkey.trans hkey'.symm
    · exact absurd hfamily.symm hne'
    · exact absurd hfamily hne
    · exact hinv.unused key other row row' hbefore hbefore' hfamily hunused hunused'
  · intro key row hrow
    rcases hsplit key row hrow with ⟨-, rfl⟩ | ⟨hbefore, -⟩
    · refine ⟨Nat.add_le_add_left ?_ _, Nat.le_refl _⟩
      simp [seconds, refreshTtlSec, refreshAbsoluteTtlSec]
    · exact hinv.bounded key row hbefore
  · intro key row hrow
    rw [hreturned]
    rcases hsplit key row hrow with ⟨-, rfl⟩ | ⟨hbefore, hne⟩
    · -- nothing carried a fresh family id: no row counted before, and no rotation either
      have hzero : state.rows.count (inFamily familyId) = 0 := count_eq_zero fun other hother => by
        obtain ⟨old, hold, hfamily⟩ := mem_matching.mp hother
        exact hfresh (of_decide_eq_true hfamily ▸ hknown.row other old hold)
      have hnone : state.returned.filter (rotatedIn familyId) = [] := by
        rw [List.filter_eq_nil_iff]
        exact fun entry hentry hrotated => hfresh (hknown.rotated familyId entry hentry hrotated)
      change after.rows.count (inFamily familyId) =
        1 + (state.returned.filter (rotatedIn familyId)).length
      rw [hnone, count_succ state.rows (hash token), hzero]
      · rfl
      · rw [mem_matching]
        rintro ⟨old, hrow, -⟩
        rw [habsent] at hrow
        cases hrow
      · exact mem_matching.mpr ⟨_, (hrows _).trans (if_pos rfl), decide_eq_true rfl⟩
      · intro other hother
        rw [mem_matching, mem_matching, hrows, if_neg hother]
    · rw [← hinv.counted key row hbefore]
      refine count_congr fun other => ?_
      rw [mem_matching, mem_matching]
      constructor
      · rintro ⟨row', hrow', hfamily⟩
        rcases hsplit other row' hrow' with ⟨-, rfl⟩ | ⟨hbefore', -⟩
        · exact absurd (of_decide_eq_true hfamily).symm hne
        · exact ⟨row', hbefore', hfamily⟩
      · rintro ⟨row', hrow', hfamily⟩
        exact ⟨row', hold other row' hrow', hfamily⟩
  · intro entry hentry hrotated
    rw [hreturned] at hentry
    obtain ⟨row, hrow, hused⟩ := hinv.used entry hentry hrotated
    exact ⟨row, hold _ row hrow, hused⟩
  · rw [hreturned]
    exact hinv.once

/-- A rotation on the committed rows: the row of the presented token is used, its successor is
added, and the caller gets it. -/
structure Rotates (hash : Token → Hash) (state after : State Hash) (token next : Token)
    (old : TokenRow) (now : Nat) (owner : Owner) : Prop where
  found : state.rows.committed (hash token) = some old
  live : old.Live owner
  absent : state.rows.committed (hash next) = none
  used : after.rows.committed (hash token) = some (old.use now)
  successor : after.rows.committed (hash next) = some (old.successor now)
  rest : ∀ key, key ≠ hash token → key ≠ hash next →
    after.rows.committed key = state.rows.committed key
  returned : after.returned = state.returned ++ [(token, .rotated owner next)]

section Rotates

variable {token next : Token} {old : TokenRow} {now : Nat} {owner : Owner}

omit [DecidableEq Hash]

theorem Rotates.family_eq (hrotates : Rotates hash state after token next old now owner) :
    old.familyId = owner.familyId :=
  congrArg Owner.familyId hrotates.live.owner

theorem Rotates.cases (hrotates : Rotates hash state after token next old now owner) {key : Hash}
    {row : TokenRow} (hrow : after.rows.committed key = some row) :
    (key = hash token ∧ row = old.use now) ∨ (key = hash next ∧ row = old.successor now) ∨
      (key ≠ hash token ∧ state.rows.committed key = some row) := by
  by_cases htoken : key = hash token
  · subst htoken
    rw [hrotates.used] at hrow
    exact .inl ⟨rfl, (Option.some.inj hrow).symm⟩
  · by_cases hkey : key = hash next
    · subst hkey
      rw [hrotates.successor] at hrow
      exact .inr (.inl ⟨rfl, (Option.some.inj hrow).symm⟩)
    · exact .inr (.inr ⟨htoken, (hrotates.rest key htoken hkey).symm.trans hrow⟩)

theorem Rotates.kept (hrotates : Rotates hash state after token next old now owner) {key : Hash}
    {row : TokenRow} (hkey : key ≠ hash token) (hrow : state.rows.committed key = some row) :
    after.rows.committed key = some row := by
  rw [hrotates.rest key hkey, hrow]
  rintro rfl
  rw [hrotates.absent] at hrow
  cases hrow

/-- A row of the new table has its constant part from a row of the old one. -/
theorem Rotates.origin (hrotates : Rotates hash state after token next old now owner) {key : Hash}
    {row : TokenRow} (hrow : after.rows.committed key = some row) : ∃ key' row',
      state.rows.committed key' = some row' ∧ row'.familyId = row.familyId ∧
      row'.userId = row.userId ∧ row'.familyStartedAt = row.familyStartedAt := by
  rcases hrotates.cases hrow with ⟨-, rfl⟩ | ⟨-, rfl⟩ | ⟨-, hbefore⟩
  · exact ⟨_, old, hrotates.found, rfl, rfl, rfl⟩
  · exact ⟨_, old, hrotates.found, rfl, rfl, rfl⟩
  · exact ⟨key, row, hbefore, rfl, rfl, rfl⟩

/-- The row that is rotated is the unused one, so no other row of the family is unused. -/
theorem ChainInv.used_of_ne (hinv : ChainInv hash state)
    (hrotates : Rotates hash state after token next old now owner) {key : Hash} {row : TokenRow}
    (hkey : key ≠ hash token) (hrow : state.rows.committed key = some row)
    (hfamily : row.familyId = old.familyId) : row.usedAt ≠ none := by
  intro hunused
  exact hkey (hinv.unused key (hash token) row old hrow hrotates.found hfamily hunused
    hrotates.live.unused)

theorem ChainInv.unused_of_rotates (hinv : ChainInv hash state)
    (hrotates : Rotates hash state after token next old now owner) {key other : Hash}
    {row row' : TokenRow} (hrow : after.rows.committed key = some row)
    (hrow' : after.rows.committed other = some row') (hfamily : row.familyId = row'.familyId)
    (hunused : row.usedAt = none) (hunused' : row'.usedAt = none) : key = other := by
  rcases hrotates.cases hrow with ⟨-, rfl⟩ | ⟨hkey, rfl⟩ | ⟨hkey, hbefore⟩
  · cases hunused
  · rcases hrotates.cases hrow' with ⟨-, rfl⟩ | ⟨hkey', -⟩ | ⟨hkey', hbefore'⟩
    · cases hunused'
    · exact hkey.trans hkey'.symm
    · exact absurd hunused' (hinv.used_of_ne hrotates hkey' hbefore' hfamily.symm)
  · rcases hrotates.cases hrow' with ⟨-, rfl⟩ | ⟨-, rfl⟩ | ⟨-, hbefore'⟩
    · cases hunused'
    · exact absurd hunused (hinv.used_of_ne hrotates hkey hbefore hfamily)
    · exact hinv.unused key other row row' hbefore hbefore' hfamily hunused hunused'

/-- The family of the token has one row more. -/
theorem Rotates.count_own (hrotates : Rotates hash state after token next old now owner) :
    after.rows.count (inFamily owner.familyId) =
      state.rows.count (inFamily owner.familyId) + 1 := by
  apply count_succ state.rows (hash next)
  · rw [mem_matching]
    rintro ⟨row, hrow, -⟩
    rw [hrotates.absent] at hrow
    cases hrow
  · exact mem_matching.mpr ⟨_, hrotates.successor, decide_eq_true hrotates.family_eq⟩
  · intro other hother
    rw [mem_matching, mem_matching]
    constructor
    · rintro ⟨row, hrow, hmember⟩
      rcases hrotates.cases hrow with ⟨rfl, rfl⟩ | ⟨hkey, -⟩ | ⟨-, hbefore⟩
      · exact ⟨old, hrotates.found, hmember⟩
      · exact absurd hkey hother
      · exact ⟨row, hbefore, hmember⟩
    · rintro ⟨row, hrow, hmember⟩
      by_cases htoken : other = hash token
      · subst htoken
        rw [hrotates.found] at hrow
        cases hrow
        exact ⟨_, hrotates.used, hmember⟩
      · exact ⟨row, hrotates.kept htoken hrow, hmember⟩

theorem Rotates.count_of_ne (hrotates : Rotates hash state after token next old now owner)
    {familyId : FamilyId} (hne : familyId ≠ owner.familyId) :
    after.rows.count (inFamily familyId) = state.rows.count (inFamily familyId) := by
  refine count_congr fun other => ?_
  rw [mem_matching, mem_matching]
  constructor
  · rintro ⟨row, hrow, hmember⟩
    have hfamily : row.familyId = familyId := of_decide_eq_true hmember
    rcases hrotates.cases hrow with ⟨-, rfl⟩ | ⟨-, rfl⟩ | ⟨-, hbefore⟩
    · exact absurd (hfamily.symm.trans hrotates.family_eq) hne
    · exact absurd (hfamily.symm.trans hrotates.family_eq) hne
    · exact ⟨row, hbefore, hmember⟩
  · rintro ⟨row, hrow, hmember⟩
    refine ⟨row, hrotates.kept ?_ hrow, hmember⟩
    rintro rfl
    rw [hrotates.found] at hrow
    cases hrow
    exact hne ((of_decide_eq_true hmember).symm.trans hrotates.family_eq)

theorem ChainInv.counted_of_rotates (hinv : ChainInv hash state)
    (hrotates : Rotates hash state after token next old now owner) {key : Hash} {row : TokenRow}
    (hrow : after.rows.committed key = some row) : after.rows.count (inFamily row.familyId) =
      1 + (after.returned.filter (rotatedIn row.familyId)).length := by
  obtain ⟨key₀, base, hbase, hsame, -, -⟩ := hrotates.origin hrow
  have hcount := hinv.counted key₀ base hbase
  rw [hsame] at hcount
  rw [hrotates.returned, List.filter_append, List.length_append]
  by_cases heq : row.familyId = owner.familyId
  · have hlast : [(token, RotationResult.rotated owner next)].filter (rotatedIn owner.familyId) =
        [(token, RotationResult.rotated owner next)] := by
      simp [rotatedIn]
    rw [heq] at hcount ⊢
    rw [hlast, hrotates.count_own, hcount, List.length_singleton, Nat.add_assoc]
  · have hlast :
        [(token, RotationResult.rotated owner next)].filter (rotatedIn row.familyId) = [] := by
      simp [rotatedIn, Ne.symm heq]
    rw [hlast, List.length_nil, Nat.add_zero, ← hcount]
    exact hrotates.count_of_ne heq

/-- A rotation of the token that returned earlier would have left its row used. -/
theorem ChainInv.not_rotated (hinv : ChainInv hash state)
    (hrotates : Rotates hash state after token next old now owner) :
    state.returned.filter (rotationOf token) = [] := by
  rw [List.filter_eq_nil_iff]
  intro entry hentry hrotation
  simp only [rotationOf, Bool.and_eq_true, decide_eq_true_eq] at hrotation
  obtain ⟨row, hrow, hrowUsed⟩ := hinv.used entry hentry hrotation.2
  rw [hrotation.1, hrotates.found] at hrow
  cases hrow
  rw [hrotates.live.unused] at hrowUsed
  cases hrowUsed

theorem ChainInv.once_of_rotates (hinv : ChainInv hash state)
    (hrotates : Rotates hash state after token next old now owner) (other : Token) :
    (after.returned.filter (rotationOf other)).length ≤ 1 := by
  rw [hrotates.returned, List.filter_append, List.length_append]
  by_cases heq : token = other
  · subst heq
    rw [hinv.not_rotated hrotates]
    simpa using List.length_filter_le (rotationOf token) [(token, .rotated owner next)]
  · have hlast : [(token, RotationResult.rotated owner next)].filter (rotationOf other) = [] := by
      simp [rotationOf, heq]
    rw [hlast, List.length_nil, Nat.add_zero]
    exact hinv.once other

theorem ChainInv.of_rotated (hinv : ChainInv hash state)
    (hrotates : Rotates hash state after token next old now owner) : ChainInv hash after where
  shared key other row row' hrow hrow' hsame := by
    obtain ⟨key₀, base, hbase, hfamily₀, huser, hstarted⟩ := hrotates.origin hrow
    obtain ⟨key₁, base', hbase', hfamily₁, huser', hstarted'⟩ := hrotates.origin hrow'
    obtain ⟨husers, hstarts⟩ := hinv.shared key₀ key₁ base base' hbase hbase'
      (by rw [hfamily₀, hfamily₁, hsame])
    exact ⟨by rw [← huser, ← huser', husers], by rw [← hstarted, ← hstarted', hstarts]⟩
  unused key other row row' hrow hrow' hsame hunused hunused' :=
    hinv.unused_of_rotates hrotates hrow hrow' hsame hunused hunused'
  bounded key row hrow := by
    rcases hrotates.cases hrow with ⟨-, rfl⟩ | ⟨-, rfl⟩ | ⟨-, hbefore⟩
    · exact hinv.bounded _ old hrotates.found
    · exact ⟨Nat.min_le_right _ _, Nat.min_le_left _ _⟩
    · exact hinv.bounded key row hbefore
  counted key row hrow := hinv.counted_of_rotates hrotates hrow
  used entry hentry hrotated := by
    rw [hrotates.returned, List.mem_append, List.mem_singleton] at hentry
    rcases hentry with hentry | rfl
    · obtain ⟨row, hrow, hrowUsed⟩ := hinv.used entry hentry hrotated
      by_cases htoken : hash entry.1 = hash token
      · exact ⟨_, by rw [htoken]; exact hrotates.used, rfl⟩
      · exact ⟨row, hrotates.kept htoken hrow, hrowUsed⟩
    · exact ⟨_, hrotates.used, rfl⟩
  once other := hinv.once_of_rotates hrotates other

end Rotates

theorem ChainInv.of_effect (hinv : ChainInv hash state) (hknown : KnownInv state)
    (heffect : Effect hash state action after) : ChainInv hash after := by
  cases heffect with
  | unchanged hrows hfamilies hreturned =>
      exact hinv.of_stamped (stamped_of_unchanged hrows hfamilies hreturned)
  | issued userId familyId token hfresh habsent hrows hfamilies hreturned =>
      exact hinv.of_issued hknown hfresh habsent hrows hreturned
  | rotated token next row now owner hrow hlive habsent hused hnext hrows hfamilies hreturned =>
      exact hinv.of_rotated ⟨hrow, hlive, habsent, hused, hnext, hrows, hreturned⟩
  | revoked call familyId now caller snapshot affected haction hphase hrows hsnapshot hfamilies
      hreturned =>
      exact hinv.of_stamped (stamped_of_revoked hrows hfamilies hreturned)

/-! ### One rotation for each token -/

/-- Two calls never both rotate one token. -/
def RotatedOnce (calls : Call → Phase Hash) : Prop :=
  ∀ call other token owner owner' next next',
    calls call = .answered token (.rotated owner next) →
    calls other = .answered token (.rotated owner' next') → call = other

theorem RotatedOnce.step (hinv : RotatedOnce state.calls)
    (hlocks : LockInv hash state.rows state.calls) (hstep : step hash state action = some after) :
    RotatedOnce after.calls := by
  -- a rotation that returns in this step had the row unused, one that returned before has used it
  have hclash : ∀ call other token owner owner' next next' now,
      state.calls call = .inserted token next now owner →
      state.calls other = .answered token (.rotated owner' next') → False := by
    intro call other token owner owner' next next' now hinserted hanswered
    have hok := hlocks.phase call
    rw [hinserted] at hok
    obtain ⟨row, hcell, hlive, -⟩ := hok
    have hok' := hlocks.phase other
    rw [hanswered] at hok'
    obtain ⟨row', hrow', -, hused⟩ := hok'
    rw [committed, hcell] at hrow'
    cases hrow'
    rw [hlive.unused] at hused
    cases hused
  have horigin : ∀ call token owner next, after.calls call = .answered token (.rotated owner next) →
      state.calls call = .answered token (.rotated owner next) ∨
      (action.caller = some call ∧ ∃ now, state.calls call = .inserted token next now owner) := by
    intro call token owner next hphase
    rcases step_phase hlocks hstep hphase with hbefore | ⟨hcaller, hmoves⟩
    · exact .inl hbefore
    · generalize hbefore : state.calls call = phase at hmoves
      cases hmoves with
      | rotated mover token next now owner => exact .inr ⟨hcaller, now, hbefore ▸ rfl⟩
  intro call other token owner owner' next next' hcall hother
  rcases horigin call token owner next hcall with hold | ⟨hmover, now, hnew⟩ <;>
    rcases horigin other token owner' next' hother with hold' | ⟨hmover', now', hnew'⟩
  · exact hinv call other token owner owner' next next' hold hold'
  · exact (hclash other call token owner' owner next' next now' hnew' hold).elim
  · exact (hclash call other token owner owner' next next' now hnew hold').elim
  · exact Option.some.inj (hmover.symm.trans hmover')

/-! ### Runs -/

/-- Everything that holds of a state reached from the empty database. -/
structure Inv (hash : Token → Hash) (state : State Hash) : Prop where
  locks : LockInv hash state.rows state.calls
  known : KnownInv state
  chain : ChainInv hash state
  once : RotatedOnce state.calls

omit [DecidableEq Hash] in
theorem inv_init : Inv hash (State.init : State Hash) :=
  ⟨lockInv_init, knownInv_init, chainInv_init, fun _ _ _ _ _ _ _ hcall => by cases hcall⟩

theorem Inv.step (hinv : Inv hash state) (hstep : step hash state action = some after) :
    Inv hash after :=
  ⟨(step_effect hinv.locks hstep).1, hinv.known.step hinv.locks hstep,
    hinv.chain.of_effect hinv.known (step_effect hinv.locks hstep).2,
    hinv.once.step hinv.locks hstep⟩

theorem Inv.reach {ok : State Hash → Action Hash → Prop} {later : State Hash}
    (hinv : Inv hash state) (hreach : Reach (RefreshToken.step hash) ok state later) :
    Inv hash later :=
  hreach.invariant (Inv hash) hinv fun _ _ _ _ hinv _ hstep => hinv.step hstep

end Marketplace.RefreshToken
