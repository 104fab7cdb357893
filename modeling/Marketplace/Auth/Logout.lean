import Marketplace.Auth.ReuseDenylist

/-!
# What a logout ends

In a sequential run a logout ends the refresh family for good and denies the access token that asked
for it. The other access tokens of the session are not denied: they run out by themselves, at the
latest one access TTL after the logout.
-/

namespace Marketplace.AuthService

open ReadCommitted Transition
open RefreshToken (FamilyId Token FamilyRevoked RevokedInv SnapshotComplete SnapshotsComplete
  sampleToken)

variable {Hash : Type}

/-- A login, a refresh or a logout begins. -/
def Action.starts : Action Hash → Bool
  | .login _ _ | .refresh _ _ | .logout _ _ => true
  | .tick _ | .issue _ _ _ | .statement _ | .readUser _ _ | .sign _ _ | .denyFamily _ | .reject _
  | .denyAccess _ => false

/-- A call begins when every call before it has ended. -/
def Sequential (state : State Hash) (action : Action Hash) : Prop :=
  action.starts = true → ∀ call ∈ state.started, (state.handlers call).isActive = false

instance (state : State Hash) (action : Action Hash) : Decidable (Sequential state action) :=
  inferInstanceAs (Decidable (_ → _))

/-- After a logout every token of the session is dead. -/
def LogoutEndsSession [DecidableEq Hash] (hash : Token → Hash) : Prop :=
  ∀ state, Reach (step hash) Sequential State.init state → ∀ entry ∈ state.logouts,
    FamilyRevoked state.tokens entry.1.familyId ∧
    ∀ token ∈ state.signed, token.familyId = entry.1.familyId →
      ¬ letsPass state.denylist state.tokens.clock token

/-- Where a logout is in `revokeFamily`. -/
def LogsOut (familyId : FamilyId) (revokedFamilies : List FamilyId) :
    RefreshToken.Phase Hash → Prop
  | .updating familyId' _ caller _ _ _ => familyId' = familyId ∧ caller = none
  | .revoked familyId' _ => familyId' = familyId ∧ familyId ∈ revokedFamilies
  | .threw => True
  | _ => False

variable [DecidableEq Hash] {hash : Token → Hash} {state after : State Hash} {action : Action Hash}

/-- One handler is at work at a time, and its transaction is the only open one. -/
structure SeqInv (hash : Token → Hash) (state : State Hash) : Prop where
  tokens : RefreshToken.Inv hash state.tokens
  fresh : ∀ call, call ∉ state.started → state.handlers call = .idle
  waiting : ∀ call, state.handlers call = .idle → state.tokens.calls call = .idle
  busy : ∀ call, (state.tokens.calls call).isOpen = true →
    state.handlers call = .rotating ∨ ∃ principal, state.handlers call = .loggingOut principal
  alone : ∀ call other, (state.handlers call).isActive = true →
    (state.handlers other).isActive = true → call = other
  complete : SnapshotsComplete state.tokens
  leaving : ∀ call principal, state.handlers call = .loggingOut principal →
    LogsOut principal.familyId state.tokens.revokedFamilies (state.tokens.calls call) ∧
    ∃ token ∈ state.signed, principal = token.principal

omit [DecidableEq Hash] in
theorem seqInv_init : SeqInv hash (State.init : State Hash) where
  tokens := RefreshToken.inv_init
  fresh _ _ := rfl
  waiting _ _ := rfl
  busy _ hopen := by cases hopen
  alone _ _ hactive := by cases hactive
  complete _ _ _ _ _ _ _ hphase := by cases hphase
  leaving _ _ hhandler := by cases hhandler

omit [DecidableEq Hash] in
theorem SeqInv.active_of_open {hash : Token → Hash} (hinv : SeqInv hash state) {call : Call}
    (hopen : (state.tokens.calls call).isOpen = true) : (state.handlers call).isActive = true := by
  rcases hinv.busy call hopen with hhandler | ⟨principal, hhandler⟩ <;> rw [hhandler] <;> rfl

omit [DecidableEq Hash] in
theorem LogsOut.mono {familyId : FamilyId} {families families' : List FamilyId}
    {phase : RefreshToken.Phase Hash} (hlogsOut : LogsOut familyId families phase)
    (hmono : ∀ familyId ∈ families, familyId ∈ families') : LogsOut familyId families' phase := by
  cases phase with
  | revoked familyId' affected => exact ⟨hlogsOut.1, hmono _ hlogsOut.2⟩
  | _ => exact hlogsOut

omit [DecidableEq Hash] in
/-- The step lemma: only the caller's own handler and transaction are left to check. -/
theorem SeqInv.move (call : Call) (next : Handler) (hinv : SeqInv hash state)
    (htokens : RefreshToken.Inv hash after.tokens) (hcomplete : SnapshotsComplete after.tokens)
    (hothers : ∀ other, other ≠ call → after.tokens.calls other = state.tokens.calls other)
    (hrevoked : ∀ familyId ∈ state.tokens.revokedFamilies, familyId ∈ after.tokens.revokedFamilies)
    (hhandlers : after.handlers = Function.update state.handlers call next)
    (hstarted : ∀ other ∈ state.started, other ∈ after.started)
    (hsigned : ∀ token ∈ state.signed, token ∈ after.signed)
    (hstart : call ∈ after.started) (hidle : next ≠ .idle)
    (hbusy : (after.tokens.calls call).isOpen = true →
      next = .rotating ∨ ∃ principal, next = .loggingOut principal)
    (halone : next.isActive = true → ∀ other, (state.handlers other).isActive = true → other = call)
    (hleaving : ∀ principal, next = .loggingOut principal →
      LogsOut principal.familyId after.tokens.revokedFamilies (after.tokens.calls call) ∧
      ∃ token ∈ state.signed, principal = token.principal) : SeqInv hash after := by
  have hself : after.handlers call = next := by rw [hhandlers, Function.update_self]
  have hother : ∀ other, other ≠ call → after.handlers other = state.handlers other := by
    intro other hne
    rw [hhandlers, Function.update_of_ne hne]
  refine ⟨htokens, fun other hfresh => ?_, fun other hwaits => ?_, fun other hopen => ?_,
    fun left right hleft hright => ?_, hcomplete, fun other principal hhandler => ?_⟩
  · have hne : other ≠ call := by
      rintro rfl
      exact hfresh hstart
    rw [hother other hne]
    exact hinv.fresh other fun hmem => hfresh (hstarted other hmem)
  · by_cases heq : other = call
    · subst heq
      exact absurd (hself.symm.trans hwaits) hidle
    · rw [hother other heq] at hwaits
      rw [hothers other heq]
      exact hinv.waiting other hwaits
  · by_cases heq : other = call
    · subst heq
      rw [hself]
      exact hbusy hopen
    · rw [hothers other heq] at hopen
      rw [hother other heq]
      exact hinv.busy other hopen
  · by_cases hl : left = call <;> by_cases hr : right = call
    · exact hl.trans hr.symm
    · rw [hother right hr] at hright
      rw [hl, hself] at hleft
      exact absurd (halone hleft right hright) hr
    · rw [hother left hl] at hleft
      rw [hr, hself] at hright
      exact absurd (halone hright left hleft) hl
    · rw [hother left hl] at hleft
      rw [hother right hr] at hright
      exact hinv.alone left right hleft hright
  · by_cases heq : other = call
    · subst heq
      obtain ⟨hlogsOut, token, htoken, hprincipal⟩ := hleaving principal (hself.symm.trans hhandler)
      exact ⟨hlogsOut, token, hsigned token htoken, hprincipal⟩
    · rw [hother other heq] at hhandler
      rw [hothers other heq]
      obtain ⟨hlogsOut, token, htoken, hprincipal⟩ := hinv.leaving other principal hhandler
      exact ⟨hlogsOut.mono hrevoked, token, hsigned token htoken, hprincipal⟩

omit [DecidableEq Hash] in
/-- A call that has been started is never idle again, so its handler is its own. -/
theorem SeqInv.started_of_active (hinv : SeqInv hash state) {call : Call}
    (hhandler : state.handlers call ≠ .idle) : call ∈ state.started := by
  by_contra hfresh
  exact hhandler (hinv.fresh call hfresh)

omit [DecidableEq Hash] in
/-- At the start of a call nobody else is at work. -/
theorem SeqInv.quiet_of_sequential (hinv : SeqInv hash state)
    (hsequential : ∀ call ∈ state.started, (state.handlers call).isActive = false) (call : Call) :
    (state.handlers call).isActive = false := by
  by_cases hmem : call ∈ state.started
  · exact hsequential call hmem
  · rw [hinv.fresh call hmem]
    rfl

omit [DecidableEq Hash] in
theorem open_of_statement {before : RefreshToken.State Hash} {inner : RefreshToken.Action Hash}
    {phase phase' : RefreshToken.Phase Hash}
    (hmove : RefreshToken.Moves hash before inner phase phase')
    (hinner : isStatement inner = true) : phase.isOpen = true := by
  cases hmove with
  | issued => cases hinner
  | began => cases hinner
  | malformed => cases hinner
  | revokeFamily => cases hinner
  | aborted call phase hopen => exact hopen
  | _ => rfl

theorem logsOut_step {inner : RefreshToken.Action Hash} {before tokens : RefreshToken.State Hash}
    {call : Call} {familyId : FamilyId} (hinv : RefreshToken.Inv hash before)
    (hinner : isStatement inner = true) (hcaller : inner.caller = some call)
    (htokens : RefreshToken.step hash before inner = some tokens)
    (hlogsOut : LogsOut familyId before.revokedFamilies (before.calls call)) :
    LogsOut familyId tokens.revokedFamilies (tokens.calls call) := by
  have hmove := (RefreshToken.step_moves hinv.locks htokens).2 call hcaller
  generalize hbefore : before.calls call = phase at hmove hlogsOut
  generalize tokens.calls call = phase' at hmove ⊢
  cases hmove with
  | visited mover key family now caller snapshot todo todo' affected affected' => exact hlogsOut
  | reused mover family token now owner snapshot affected => cases hlogsOut.2
  | revoked mover family now snapshot affected =>
      cases hcaller
      obtain ⟨rfl, -⟩ := hlogsOut
      refine ⟨rfl, ?_⟩
      rw [RefreshToken.revokedFamilies_of_commit hbefore htokens]
      exact List.mem_cons_self
  | aborted mover phase hopen => trivial
  | revokeFamily => cases hinner
  | _ => exact hlogsOut.elim

/-- A statement is executed by the one transaction that is open, and its handler stays. -/
theorem SeqInv.statement {inner : RefreshToken.Action Hash} {tokens : RefreshToken.State Hash}
    (hinv : SeqInv hash state) (hinner : isStatement inner = true)
    (htokens : RefreshToken.step hash state.tokens inner = some tokens) :
    SeqInv hash { state with tokens := tokens } := by
  obtain ⟨hothers, hmoves⟩ := RefreshToken.step_moves hinv.tokens.locks htokens
  obtain ⟨call, hcaller⟩ : ∃ call, inner.caller = some call := by
    cases inner <;> simp [isStatement] at hinner <;> exact ⟨_, rfl⟩
  have hopen := open_of_statement (hmoves call hcaller) hinner
  have hactive := hinv.active_of_open hopen
  have hne : ∀ other, other ≠ call → inner.caller ≠ some other := by
    intro other hother heq
    rw [hcaller] at heq
    exact hother (Option.some.inj heq).symm
  refine hinv.move call (state.handlers call) (hinv.tokens.step htokens)
    (hinv.complete.step hinv.tokens ?_ htokens)
    (fun other hother => hothers other (hne other hother))
    (RefreshToken.step_effect hinv.tokens.locks htokens).2.revokedFamilies_mono
    (Function.update_eq_self call state.handlers).symm (fun _ => id) (fun _ => id) ?_ ?_
    (fun _ => hinv.busy call hopen) (fun _ other hother => hinv.alone other call hother hactive) ?_
  · intro other hother _
    rw [hcaller, hinv.alone other call (hinv.active_of_open hother) hactive]
  · refine hinv.started_of_active fun hidle => ?_
    rw [hidle] at hactive
    cases hactive
  · intro hidle
    rw [hidle] at hactive
    cases hactive
  · intro principal hhandler
    obtain ⟨hlogsOut, htoken⟩ := hinv.leaving call principal hhandler
    exact ⟨logsOut_step hinv.tokens hinner hcaller htokens hlogsOut, htoken⟩

/-- A transaction begins: `issue`, `rotate` or `revokeFamily` while nobody else is at work. -/
theorem SeqInv.begin {inner : RefreshToken.Action Hash} {call : Call} {next : Handler}
    (hinv : SeqInv hash state) (hcaller : inner.caller = some call)
    (htokens : RefreshToken.step hash state.tokens inner = some after.tokens)
    (hquiet : ∀ other, (state.handlers other).isActive = true → other = call)
    (hhandlers : after.handlers = Function.update state.handlers call next)
    (hstarted : ∀ other ∈ state.started, other ∈ after.started) (hstart : call ∈ after.started)
    (hsigned : after.signed = state.signed) (hidle : next ≠ .idle)
    (hbusy : (after.tokens.calls call).isOpen = true →
      next = .rotating ∨ ∃ principal, next = .loggingOut principal)
    (hleaving : ∀ principal, next = .loggingOut principal →
      LogsOut principal.familyId after.tokens.revokedFamilies (after.tokens.calls call) ∧
      ∃ token ∈ state.signed, principal = token.principal) : SeqInv hash after := by
  refine hinv.move call next (hinv.tokens.step htokens)
    (hinv.complete.step hinv.tokens ?_ htokens) ?_
    (RefreshToken.step_effect hinv.tokens.locks htokens).2.revokedFamilies_mono hhandlers hstarted
    (by rw [hsigned]; exact fun _ => id) hstart hidle hbusy (fun _ => hquiet) hleaving
  · intro other hopen _
    rw [hcaller, hquiet other (hinv.active_of_open hopen)]
  · intro other hother
    refine (RefreshToken.step_moves hinv.tokens.locks htokens).1 other fun heq => ?_
    rw [hcaller] at heq
    exact hother (Option.some.inj heq).symm

omit [DecidableEq Hash] in
/-- A handler moves while its transaction is not open. -/
theorem SeqInv.goto {call : Call} {next : Handler} (hinv : SeqInv hash state)
    (htokens : after.tokens = state.tokens)
    (hhandlers : after.handlers = Function.update state.handlers call next)
    (hstarted : ∀ other ∈ state.started, other ∈ after.started) (hstart : call ∈ after.started)
    (hsigned : ∀ token ∈ state.signed, token ∈ after.signed) (hidle : next ≠ .idle)
    (hclosed : (state.tokens.calls call).isOpen = false)
    (halone : next.isActive = true → ∀ other, (state.handlers other).isActive = true → other = call)
    (hnext : ∀ principal, next ≠ .loggingOut principal) : SeqInv hash after := by
  refine hinv.move call next (by rw [htokens]; exact hinv.tokens)
    (by rw [htokens]; exact hinv.complete) (fun other _ => by rw [htokens])
    (by rw [htokens]; exact fun _ => id) hhandlers hstarted hsigned
    hstart hidle (fun hopen => ?_) halone (fun principal heq => absurd heq (hnext principal))
  rw [htokens, hclosed] at hopen
  cases hopen

omit [DecidableEq Hash] in
/-- A handler that waits for no transaction has none open. -/
theorem SeqInv.closed_of_handler {call : Call} (hinv : SeqInv hash state)
    (hrotating : state.handlers call ≠ .rotating)
    (hleaving : ∀ principal, state.handlers call ≠ .loggingOut principal) :
    (state.tokens.calls call).isOpen = false := by
  by_contra hopen
  rcases hinv.busy call (Bool.of_not_eq_false hopen) with hhandler | ⟨principal, hhandler⟩
  · exact hrotating hhandler
  · exact hleaving principal hhandler

theorem SeqInv.step (hinv : SeqInv hash state) (hsequential : Sequential state action)
    (hstep : step hash state action = some after) : SeqInv hash after := by
  have hquiet : action.starts = true → ∀ call, (state.handlers call).isActive = true → False := by
    intro hstarts call hactive
    rw [hinv.quiet_of_sequential (hsequential hstarts) call] at hactive
    cases hactive
  cases step_handles hstep with
  | tick elapsed =>
      have htick : RefreshToken.step hash state.tokens (.tick elapsed) =
          some { state.tokens with clock := state.tokens.clock + elapsed } := rfl
      exact ⟨hinv.tokens.step htick, hinv.fresh, hinv.waiting, hinv.busy, hinv.alone,
        hinv.complete, hinv.leaving⟩
  | login call user next hidle hnext =>
      have hclosed : (state.tokens.calls call).isOpen = false := by
        rw [hinv.waiting call hidle]
        rfl
      refine hinv.goto rfl rfl (fun _ => List.mem_cons_of_mem call) List.mem_cons_self (fun _ => id)
        ?_ hclosed (fun _ other hactive => (hquiet rfl other hactive).elim) ?_
      · rcases hnext with rfl | ⟨userId, role, rfl⟩ <;> exact nofun
      · rcases hnext with rfl | ⟨userId, role, rfl⟩ <;> exact nofun
  | issue call userId role familyId token tokens hhandler htokens =>
      have hactive : (state.handlers call).isActive = true := by rw [hhandler]; rfl
      have hissued : tokens.calls call = .issued token familyId := by
        have hmove := (RefreshToken.step_moves hinv.tokens.locks htokens).2 call rfl
        generalize state.tokens.calls call = phase at hmove
        generalize tokens.calls call = phase' at hmove ⊢
        cases hmove
        rfl
      refine hinv.begin rfl htokens (fun other hother => hinv.alone other call hother hactive) rfl
        (fun _ => id) (hinv.started_of_active (by rw [hhandler]; exact nofun)) rfl nofun ?_ nofun
      intro hopen
      rw [hissued] at hopen
      cases hopen
  | refresh call token tokens hidle htokens =>
      exact hinv.begin rfl htokens (fun other hother => (hquiet rfl other hother).elim) rfl
        (fun _ => List.mem_cons_of_mem call) List.mem_cons_self rfl nofun (fun _ => .inl rfl) nofun
  | statement inner tokens hinner htokens => exact hinv.statement hinner htokens
  | readUser call role presented token owner next hhandler hanswer hnext =>
      have hactive : (state.handlers call).isActive = true := by rw [hhandler]; rfl
      refine hinv.goto rfl rfl (fun _ => id)
        (hinv.started_of_active (by rw [hhandler]; exact nofun))
        (fun _ => id) ?_ (by rw [hanswer]; rfl)
        (fun _ other hother => hinv.alone other call hother hactive) ?_
      · rcases hnext with rfl | ⟨role, rfl⟩ <;> exact nofun
      · rcases hnext with rfl | ⟨role, rfl⟩ <;> exact nofun
  | sign call jti userId role familyId refreshToken hhandler hfresh =>
      exact hinv.goto rfl rfl (fun _ => id)
        (hinv.started_of_active (by rw [hhandler]; exact nofun))
        (fun _ => List.mem_cons_of_mem _) nofun
        (hinv.closed_of_handler (by rw [hhandler]; exact nofun) (by rw [hhandler]; exact nofun))
        nofun nofun
  | denyFamily call presented owner revokedRows hhandler hanswer =>
      exact hinv.goto rfl rfl (fun _ => id)
        (hinv.started_of_active (by rw [hhandler]; exact nofun)) (fun _ => id) nofun
        (by rw [hanswer]; rfl) nofun nofun
  | reject call next hactive hanswer hnext =>
      refine hinv.goto rfl rfl (fun _ => id) (hinv.started_of_active ?_)
        (fun _ => id) ?_ hanswer ?_ ?_
      · intro hidle
        rw [hidle] at hactive
        cases hactive
      all_goals rcases hnext with rfl | rfl <;> exact nofun
  | logout call token tokens hidle hsigned htokens =>
      have hlogsOut : LogsOut token.familyId tokens.revokedFamilies (tokens.calls call) := by
        have hmove := (RefreshToken.step_moves hinv.tokens.locks htokens).2 call rfl
        generalize state.tokens.calls call = phase at hmove
        generalize tokens.calls call = phase' at hmove ⊢
        cases hmove
        exact ⟨rfl, rfl⟩
      refine hinv.begin rfl htokens (fun other hother => (hquiet rfl other hother).elim) rfl
        (fun _ => List.mem_cons_of_mem call) List.mem_cons_self rfl nofun
        (fun _ => .inr ⟨_, rfl⟩) ?_
      rintro principal ⟨⟩
      exact ⟨hlogsOut, token, hsigned, rfl⟩
  | denyAccess call principal familyId affected hhandler hanswer =>
      exact hinv.goto rfl rfl (fun _ => id)
        (hinv.started_of_active (by rw [hhandler]; exact nofun)) (fun _ => id) nofun
        (by rw [hanswer]; rfl) nofun nofun

theorem SeqInv.reach {later : State Hash} (hinv : SeqInv hash state)
    (hreach : Reach (AuthService.step hash) Sequential state later) : SeqInv hash later :=
  hreach.invariant (SeqInv hash) hinv fun _ _ _ _ hinv hok hstep => hinv.step hok hstep

/-- What a sequential run does to the refresh tokens is a run with complete snapshots. -/
theorem SeqInv.tokens_reach {later : State Hash} (hinv : SeqInv hash state)
    (hreach : Reach (AuthService.step hash) Sequential state later) :
    Reach (RefreshToken.step hash) SnapshotComplete state.tokens later.tokens := by
  refine hreach.invariant
    (fun later => Reach (RefreshToken.step hash) SnapshotComplete state.tokens later.tokens) .refl
    fun before action next hbefore htokens _ hstep => ?_
  have hinner : ∀ inner tokens, RefreshToken.step hash before.tokens inner = some tokens →
      Reach (RefreshToken.step hash) SnapshotComplete state.tokens tokens := fun inner _ hnext =>
    htokens.tail ((hinv.reach hbefore).complete.snapshotComplete inner) hnext
  cases step_handles hstep with
  | tick elapsed => exact hinner (.tick elapsed) _ rfl
  | issue call userId role familyId token tokens hhandler hnext => exact hinner _ tokens hnext
  | refresh call token tokens hidle hnext => exact hinner _ tokens hnext
  | statement inner tokens hstatement hnext => exact hinner _ tokens hnext
  | logout call token tokens hidle hsigned hnext => exact hinner _ tokens hnext
  | _ => exact htokens

/-! ### After the logout -/

/-- No rotation of the family is on its way to a signature. -/
def NotRotating (familyId : FamilyId) (state : State Hash) (call : Call) : Prop :=
  match state.handlers call with
  | .idle | .rotating => ∀ presented owner next,
      state.tokens.calls call = .answered presented (.rotated owner next) →
        owner.familyId ≠ familyId
  | .signing _ _ familyId' _ => familyId' ≠ familyId
  | _ => True

/-- What a logout that returned at time `at` leaves behind. -/
structure Ended (principal : AccessPrincipal) (time : Nat) (state : State Hash) : Prop where
  revoked : principal.familyId ∈ state.tokens.revokedFamilies
  passed : time ≤ state.tokens.clock
  issued : ∃ token ∈ state.signed, principal = token.principal
  denied : seconds principal.expiresAt ≤ state.tokens.clock ∨
    ∃ deadline, state.denylist.jti principal.jti = some deadline ∧
      seconds principal.expiresAt ≤ deadline
  bounded : ∀ token ∈ state.signed, token.familyId = principal.familyId →
    seconds token.exp ≤ time + seconds accessTtlSec
  quiet : ∀ call, NotRotating principal.familyId state call

omit [DecidableEq Hash] in
theorem notRotating_congr {familyId : FamilyId} {call : Call}
    (hhandler : after.handlers call = state.handlers call)
    (hphase : after.tokens.calls call = state.tokens.calls call)
    (hquiet : NotRotating familyId state call) : NotRotating familyId after call := by
  unfold NotRotating at *
  rwa [hhandler, hphase]

theorem notRotating_step {familyId : FamilyId} (hinv : RefreshToken.Inv hash state.tokens)
    (hrevoked : RevokedInv state.tokens) (hfamily : familyId ∈ state.tokens.revokedFamilies)
    (hstep : step hash state action = some after) (hquiet : ∀ call, NotRotating familyId state call)
    (call : Call) : NotRotating familyId after call := by
  -- whoever takes no step keeps its handler and its transaction
  have hgoto : ∀ (mover : Call) (next : Handler),
      after.handlers = Function.update state.handlers mover next →
      (call ≠ mover → after.tokens.calls call = state.tokens.calls call) →
      (call = mover → NotRotating familyId after mover) → NotRotating familyId after call := by
    intro mover next hhandlers hothers hself
    by_cases heq : call = mover
    · rw [heq]
      exact hself heq
    · exact notRotating_congr (by rw [hhandlers, Function.update_of_ne heq]) (hothers heq)
        (hquiet call)
  have hinner :
      ∀ (mover : Call) (inner : RefreshToken.Action Hash) (tokens : RefreshToken.State Hash),
      RefreshToken.step hash state.tokens inner = some tokens → inner.caller = some mover →
      call ≠ mover → tokens.calls call = state.tokens.calls call := by
    intro mover inner tokens htokens hcaller hne
    refine (RefreshToken.step_moves hinv.locks htokens).1 call fun heq => ?_
    rw [hcaller] at heq
    exact hne (Option.some.inj heq).symm
  cases step_handles hstep with
  | tick elapsed => exact hquiet call
  | login mover user next hidle hnext =>
      refine hgoto mover next rfl (fun _ => rfl) fun _ => ?_
      rcases hnext with rfl | ⟨userId, role, rfl⟩ <;> simp [NotRotating, State.goto]
  | issue mover userId role issuedId token tokens hhandler htokens =>
      refine hgoto mover _ rfl (hinner mover _ tokens htokens rfl) fun _ => ?_
      have hfresh := (RefreshToken.lockInv_issue hinv.locks htokens).2.1
      simp only [NotRotating, State.goto, Function.update_self]
      rintro rfl
      exact hfresh (hinv.known.revoked _ hfamily)
  | refresh mover token tokens hidle htokens =>
      refine hgoto mover _ rfl (hinner mover _ tokens htokens rfl) fun _ => ?_
      have hbefore := hquiet mover
      simp only [NotRotating, hidle] at hbefore
      simp only [NotRotating, State.goto, Function.update_self]
      exact RefreshToken.not_rotated_step hrevoked hinv hfamily htokens hbefore
  | statement inner tokens hstatement htokens =>
      have hbefore := hquiet call
      unfold NotRotating at hbefore ⊢
      dsimp only
      split at hbefore
      · exact RefreshToken.not_rotated_step hrevoked hinv hfamily htokens hbefore
      · exact RefreshToken.not_rotated_step hrevoked hinv hfamily htokens hbefore
      · exact hbefore
      · trivial
  | readUser mover role presented token owner next hhandler hanswer hnext =>
      refine hgoto mover next rfl (fun _ => rfl) fun _ => ?_
      have hbefore := hquiet mover
      simp only [NotRotating, hhandler] at hbefore
      rcases hnext with rfl | ⟨role, rfl⟩
      · simp [NotRotating, State.goto]
      · simp only [NotRotating, State.goto, Function.update_self]
        exact hbefore presented owner token hanswer
  | sign mover jti userId role signedId refreshToken hhandler hfresh =>
      exact hgoto mover _ rfl (fun _ => rfl) fun _ => by simp [NotRotating, State.goto]
  | denyFamily mover presented owner revokedRows hhandler hanswer =>
      exact hgoto mover _ rfl (fun _ => rfl) fun _ => by simp [NotRotating, State.goto]
  | reject mover next hactive hanswer hnext =>
      refine hgoto mover next rfl (fun _ => rfl) fun _ => ?_
      rcases hnext with rfl | rfl <;> simp [NotRotating, State.goto]
  | logout mover token tokens hidle hsigned htokens =>
      exact hgoto mover _ rfl (hinner mover _ tokens htokens rfl) fun _ => by
        simp [NotRotating, State.goto]
  | denyAccess mover principal revokedId affected hhandler hanswer =>
      exact hgoto mover _ rfl (fun _ => rfl) fun _ => by simp [NotRotating, State.goto]

theorem Ended.step {principal : AccessPrincipal} {time : Nat} (hended : Ended principal time state)
    (hinv : SeqInv hash state) (hrevoked : RevokedInv state.tokens) (hsigned : SignedInv state)
    (hreach : Reach (RefreshToken.step hash) SnapshotComplete state.tokens after.tokens)
    (hstep : step hash state action = some after) : Ended principal time after := by
  have hclock := (tokensInv_step hinv.tokens hstep).2
  have hfamily := RefreshToken.revokedFamilies_reach hinv.tokens hended.revoked hreach
  have hquiet := notRotating_step hinv.tokens hrevoked hended.revoked hstep hended.quiet
  have hpassed := Nat.le_trans hended.passed hclock
  have hdenied : after.denylist.jti = state.denylist.jti →
      seconds principal.expiresAt ≤ after.tokens.clock ∨
        ∃ deadline, after.denylist.jti principal.jti = some deadline ∧
          seconds principal.expiresAt ≤ deadline := by
    intro hjti
    rw [hjti]
    exact hended.denied.imp_left fun hexpired => Nat.le_trans hexpired hclock
  cases step_handles hstep with
  | sign call jti userId role familyId refreshToken hhandler hfresh =>
      obtain ⟨token, htoken, hprincipal⟩ := hended.issued
      refine ⟨hfamily, hpassed, ⟨token, List.mem_cons_of_mem _ htoken, hprincipal⟩, hdenied rfl,
        fun other hother hmember => ?_, hquiet⟩
      rcases List.mem_cons.mp hother with rfl | hold
      · -- the token that is signed now belongs to another family
        have hsigning := hended.quiet call
        simp only [NotRotating, hhandler] at hsigning
        exact absurd hmember hsigning
      · exact hended.bounded other hold hmember
  | denyAccess call principal' familyId affected hhandler hanswer =>
      refine ⟨hfamily, hpassed, hended.issued, ?_, hended.bounded, hquiet⟩
      by_cases hjti : principal.jti = principal'.jti
      · obtain ⟨-, token', htoken', rfl⟩ := hinv.leaving call principal' hhandler
        obtain ⟨token, htoken, rfl⟩ := hended.issued
        obtain rfl := hsigned.unique token htoken token' htoken' hjti
        exact revokeAccess_spec _ _ _ _
      · rcases hended.denied with hexpired | ⟨deadline, hdeadline, hcovered⟩
        · exact .inl hexpired
        · exact .inr ⟨deadline, (revokeAccess_of_ne _ hjti).trans hdeadline, hcovered⟩
  | _ => exact ⟨hfamily, hpassed, hended.issued, hdenied rfl, hended.bounded, hquiet⟩

/-- At the moment a logout returns it is the only call at work, so nothing of the session is on its
way. -/
theorem ended_of_denyAccess {call : Call} {principal : AccessPrincipal} {familyId : FamilyId}
    {affected : Nat} (hinv : SeqInv hash state) (hsigned : SignedInv state)
    (hhandler : state.handlers call = .loggingOut principal)
    (hanswer : state.tokens.calls call = .revoked familyId affected)
    (hstep : step hash state (.denyAccess call) = some after) :
    Ended principal state.tokens.clock after := by
  obtain ⟨hlogsOut, hissued⟩ := hinv.leaving call principal hhandler
  rw [hanswer] at hlogsOut
  simp only [AuthService.step, denyAccess, hhandler, hanswer] at hstep
  cases hstep
  refine ⟨hlogsOut.2, Nat.le_refl _, hissued, revokeAccess_spec _ _ _ _,
    fun token htoken _ => hsigned.bounded token htoken, fun other => ?_⟩
  by_cases heq : other = call
  · simp [NotRotating, State.goto, heq]
  · have hinactive : (state.handlers other).isActive = false := by
      by_contra hactive
      exact heq (hinv.alone other call (Bool.of_not_eq_false hactive) (by rw [hhandler]; rfl))
    have hrest : NotRotating principal.familyId state other := by
      unfold NotRotating
      split
      · rename_i hidle
        intro presented owner next hanswered
        rw [hinv.waiting other hidle] at hanswered
        cases hanswered
      · rename_i hrotating
        rw [hrotating] at hinactive
        cases hinactive
      · rename_i hsigning
        rw [hsigning] at hinactive
        cases hinactive
      · trivial
    exact notRotating_congr (Function.update_of_ne heq _ _) rfl hrest

/-- Everything a sequential run keeps. -/
structure SessionInv (hash : Token → Hash) (state : State Hash) : Prop where
  seq : SeqInv hash state
  signed : SignedInv state
  revoked : RevokedInv state.tokens
  ended : ∀ entry ∈ state.logouts, Ended entry.1 entry.2 state

omit [DecidableEq Hash] in
theorem sessionInv_init : SessionInv hash (State.init : State Hash) :=
  ⟨seqInv_init, signedInv_init, RefreshToken.revokedInv_init, fun _ hentry => by cases hentry⟩

theorem SessionInv.step (hinv : SessionInv hash state) (hok : Sequential state action)
    (hstep : step hash state action = some after) : SessionInv hash after := by
  have htokens := hinv.seq.tokens_reach (Reach.tail .refl hok hstep)
  refine ⟨hinv.seq.step hok hstep, hinv.signed.step hinv.seq.tokens hstep,
    hinv.revoked.reach hinv.seq.tokens htokens, fun entry hentry => ?_⟩
  have hold : entry ∈ state.logouts → Ended entry.1 entry.2 after := fun hentry =>
    (hinv.ended entry hentry).step hinv.seq hinv.revoked hinv.signed htokens hstep
  cases step_handles hstep with
  | denyAccess call principal familyId affected hhandler hanswer =>
      rcases List.mem_cons.mp hentry with rfl | hentry
      · exact ended_of_denyAccess hinv.seq hinv.signed hhandler hanswer hstep
      · exact hold hentry
  | _ => exact hold hentry

theorem sessionInv_of_reach (hreach : Reach (AuthService.step hash) Sequential State.init state) :
    SessionInv hash state :=
  hreach.invariant (SessionInv hash) sessionInv_init fun _ _ _ _ hinv hok hstep =>
    hinv.step hok hstep

/-- After a logout no refresh token of the family can be rotated, the access token that asked for it
is rejected, and the other access tokens of the session pass for one access TTL at most. -/
theorem logout_ends_refresh (hreach : Reach (step hash) Sequential State.init state) :
    ∀ entry ∈ state.logouts,
      FamilyRevoked state.tokens entry.1.familyId ∧
      (∀ call, state.tokens.calls call = .idle → ∀ later, Reach (step hash) Sequential state later →
        ∀ presented row result, later.tokens.rows.committed (hash presented) = some row →
          row.familyId = entry.1.familyId → later.tokens.calls call = .answered presented result →
          result.isRotated = false) ∧
      (∀ token ∈ state.signed, token.jti = entry.1.jti →
        ¬ letsPass state.denylist state.tokens.clock token) ∧
      ∀ token ∈ state.signed, token.familyId = entry.1.familyId →
        letsPass state.denylist state.tokens.clock token →
          state.tokens.clock < seconds token.exp ∧
          state.tokens.clock < entry.2 + seconds accessTtlSec := by
  have hinv := sessionInv_of_reach hreach
  intro entry hentry
  have hended := hinv.ended entry hentry
  refine ⟨hinv.revoked _ hended.revoked, ?_, ?_, ?_⟩
  · intro call hidle later hlater presented row result hrow hmember hanswered
    exact RefreshToken.late_rotation_rejected hinv.revoked hinv.seq.tokens hended.revoked hidle
      (hinv.seq.tokens_reach hlater) hrow hmember hanswered
  · intro token htoken hjti hpass
    obtain ⟨hlive, hpresent, -⟩ := accepted_spec (letsPass_iff.mp hpass)
    obtain ⟨token', htoken', hprincipal⟩ := hended.issued
    rw [hprincipal] at hjti
    obtain rfl := hinv.signed.unique token htoken token' htoken' hjti
    have hexpires : entry.1.expiresAt = token.exp := by rw [hprincipal]; rfl
    rcases hended.denied with hexpired | ⟨deadline, hdeadline, hcovered⟩
    · rw [hexpires] at hexpired
      omega
    · rw [hprincipal] at hdeadline
      rw [show token.jti = token.principal.jti from rfl, hdeadline, Denylist.present,
        Option.any_some, decide_eq_false_iff_not] at hpresent
      rw [hexpires] at hcovered
      omega
  · intro token htoken hmember hpass
    have hlive := (accepted_spec (letsPass_iff.mp hpass)).1
    have hbound := hended.bounded token htoken hmember
    exact ⟨hlive, by omega⟩

/-- Login, one refresh, and a logout with the new access token. -/
def refreshedLogout : List (Action Token) :=
  [.login 1 (some (7, .customer)), .issue 1 0 (sampleToken 'A'), .sign 1 100,
    .refresh 2 (sampleToken 'A'), .statement (.select 2), .statement (.lock 2),
    .statement (.markUsed 2), .statement (.insert 2 (sampleToken 'B')), .statement (.commit 2),
    .readUser 2 (some .customer), .sign 2 101,
    .logout 3 (signAccess 7 .customer 0 101 0), .statement (.visit 3 (sampleToken 'A')),
    .statement (.visit 3 (sampleToken 'B')), .statement (.commit 3), .denyAccess 3]

theorem logout_ends_refresh_refreshedLogout :
    ∃ state : State Token, Reach (step id) Sequential State.init state ∧
      state.logouts = [((signAccess 7 .customer 0 101 0).principal, 0)] ∧
      FamilyRevoked state.tokens 0 ∧
      ∀ token ∈ state.signed, token.jti = 101 →
        ¬ letsPass state.denylist state.tokens.clock token := by
  obtain ⟨state, hreach, hcheck⟩ : ∃ state : State Token,
      Reach (step id) Sequential State.init state ∧
        decide (state.logouts = [((signAccess 7 .customer 0 101 0).principal, 0)]) = true :=
    exists_reach_of_runWithin refreshedLogout (by decide +kernel)
  have hlogouts := of_decide_eq_true hcheck
  have hended := logout_ends_refresh hreach _ (by rw [hlogouts]; exact List.mem_singleton_self _)
  exact ⟨state, hreach, hlogouts, hended.1, hended.2.2.1⟩

theorem refreshedLogout_old_token : ¬ LogoutEndsSession (id : Token → Token) := by
  obtain ⟨state, hreach, hcheck⟩ : ∃ state : State Token,
      Reach (step id) Sequential State.init state ∧
        decide (((signAccess 7 .customer 0 101 0).principal, 0) ∈ state.logouts ∧
          ∃ token ∈ state.signed, token.familyId = 0 ∧
            accepted state.denylist state.tokens.clock token = true) = true :=
    exists_reach_of_runWithin refreshedLogout (by decide +kernel)
  obtain ⟨hentry, token, htoken, hmember, haccepted⟩ := of_decide_eq_true hcheck
  intro hends
  exact (hends state hreach _ hentry).2 token htoken hmember (letsPass_iff.mpr haccepted)

end Marketplace.AuthService
