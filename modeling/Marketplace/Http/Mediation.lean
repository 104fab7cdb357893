import Marketplace.Auth.DeniedTokens
import Marketplace.Http.Guards

/-!
# What the guards let through

Every handler that is not public runs for the holder of a token that the service has signed, and
every handler with roles for a user who had one of them in the database when the guard asked. What
is revoked stays out: whoever comes after a logout, a reuse or the loss of a role is refused.
-/

namespace Marketplace.Http

open RefreshToken (FamilyId Token sampleToken)
open Ratelimit (LimitResult)
open Transition

variable {Hash : Type} [DecidableEq Hash] {hash : Token → Hash}
  {readToken : Text → Option AccessToken} {state after : State Hash} {action : Action Hash}

/-! ### The inversion of a step -/

inductive Takes (hash : Token → Hash) (readToken : Text → Option AccessToken)
    (before : State Hash) :
    Action Hash → State Hash → Prop
  | auth (inner : AuthService.Action Hash) (auth : AuthService.State Hash)
      (hauth : AuthService.step hash before.auth inner = some auth) :
      Takes hash readToken before (.auth inner) { before with auth := auth }
  | setRole (userId : UserId) (role : Option UserRole) :
      Takes hash readToken before (.setRole userId role)
        { before with roles := Function.update before.roles userId role }
  | arrive (call : Call) (request : Request) (hidle : before.phases call = .idle) :
      Takes hash readToken before (.arrive call request)
        (before.goto call (beginAuth readToken request before.clock))
  | allowed (call : Call) (request : Request) (principal : AccessPrincipal) (verifiedAt : Nat)
      (hphase : before.phases call = .checking request principal verifiedAt)
      (hallowed : before.auth.denylist.isDenied principal.jti principal.familyId
        before.clock = false) :
      Takes hash readToken before (.isDenied call)
        (before.goto call (.authenticated request (some ⟨principal, verifiedAt, before.clock⟩)))
  | refused (action : Action Hash) (call : Call) (refusal : Refusal)
      (hopen : before.phases call ≠ .handled) :
      Takes hash readToken before action (before.goto call (.refused refusal))
  | readRole (call : Call) (request : Request) (user : Option Identity) (role : Option UserRole)
      (hphase : before.phases call = .authenticated request user)
      (hrole : request.route.requiredRoles ≠ [] → ∃ identity current, user = some identity ∧
        role = some current ∧ before.roles identity.principal.userId = some current ∧
        current ∈ request.route.requiredRoles) :
      Takes hash readToken before (.readRole call)
        (before.goto call (.authorized request user role))
  | consume (call : Call) (result : Option LimitResult) (request : Request) (user : Option Identity)
      (role : Option UserRole) (hphase : before.phases call = .authorized request user role) :
      Takes hash readToken before (.consume call result)
        (before.goto call (.limited request user role))
  | handle (call : Call) (request : Request) (user : Option Identity) (role : Option UserRole)
      (hphase : before.phases call = .authorized request user role ∨
        before.phases call = .limited request user role) :
      Takes hash readToken before (.handle call) (runHandler before call request user role)

omit [DecidableEq Hash] in
theorem checkRoles_cases (state : State Hash) (required : List UserRole) (request : Request)
    (user : Option Identity) :
    (∃ role, checkRoles state required request user = .authorized request user role ∧
      (required ≠ [] → ∃ identity current, user = some identity ∧ role = some current ∧
        state.roles identity.principal.userId = some current ∧ current ∈ required)) ∨
    ∃ refusal, checkRoles state required request user = .refused refusal := by
  unfold checkRoles
  split
  · rename_i hnone
    exact .inl ⟨none, rfl, fun hsome => absurd hnone hsome⟩
  · cases user with
    | none => exact .inr ⟨_, rfl⟩
    | some identity =>
        dsimp only
        split
        · exact .inr ⟨_, rfl⟩
        · rename_i current hcurrent
          split
          · rename_i hmem
            exact .inl ⟨some current, rfl, fun _ => ⟨identity, current, rfl, rfl, hcurrent, hmem⟩⟩
          · exact .inr ⟨_, rfl⟩

theorem step_takes (hstep : step hash readToken state action = some after) :
    Takes hash readToken state action after := by
  cases action with
  | auth inner =>
      obtain ⟨auth, hauth, rfl⟩ := Option.map_eq_some_iff.mp hstep
      exact .auth inner auth hauth
  | setRole userId role =>
      cases hstep
      exact .setRole userId role
  | arrive call request =>
      simp only [step, arrive] at hstep
      split at hstep
      · rename_i hidle
        cases hstep
        exact .arrive call request hidle
      · cases hstep
  | isDenied call =>
      simp only [step, isDenied] at hstep
      split at hstep
      · rename_i request principal verifiedAt hphase
        cases hstep
        split
        · exact .refused _ call _ (ne_of_eq_of_ne hphase (by simp))
        · rename_i hallowed
          exact .allowed call request principal verifiedAt hphase
            (Bool.eq_false_of_not_eq_true hallowed)
      · cases hstep
  | denylistFails call =>
      simp only [step, denylistFails] at hstep
      split at hstep
      · rename_i hphase
        cases hstep
        exact .refused _ call _ (ne_of_eq_of_ne hphase (by simp))
      · cases hstep
  | readRole call =>
      simp only [step, readRole] at hstep
      split at hstep
      · rename_i request user hphase
        cases hstep
        obtain ⟨role, heq, hrole⟩ | ⟨refusal, heq⟩ :=
          checkRoles_cases state request.route.requiredRoles request user
        · rw [heq]
          exact .readRole call request user role hphase hrole
        · rw [heq]
          exact .refused _ call refusal (ne_of_eq_of_ne hphase (by simp))
      · cases hstep
  | readRoleFails call message =>
      simp only [step, readRoleFails] at hstep
      split at hstep
      · rename_i hphase
        split at hstep
        · cases hstep
        · cases hstep
          exact .refused _ call _ (ne_of_eq_of_ne hphase (by simp))
      · cases hstep
  | consume call result =>
      simp only [step, consume] at hstep
      split at hstep
      case h_2 => cases hstep
      rename_i request user role hphase
      split at hstep
      case isFalse => cases hstep
      split at hstep
      · cases hstep
        exact .consume call _ request user role hphase
      · split at hstep
        · cases hstep
          exact .consume call _ request user role hphase
        · cases hstep
          exact .refused _ call _ (ne_of_eq_of_ne hphase (by simp))
  | handle call =>
      simp only [step, handle] at hstep
      split at hstep
      · rename_i request user role hphase
        split at hstep
        · cases hstep
        · cases hstep
          exact .handle call request user role (.inl hphase)
      · rename_i request user role hphase
        cases hstep
        exact .handle call request user role (.inr hphase)
      · cases hstep

/-! ### What is known of a request -/

/-- The token that a request presents, if it has been signed. -/
def Presents (readToken : Text → Option AccessToken) (signed : List AccessToken) (request : Request)
    (token : AccessToken) : Prop :=
  token ∈ signed ∧ (bearerPattern (request.authorization.getD [])).bind readToken = some token

/-- The user of a request holds the token that came with it, and it had not expired when it was
verified. -/
def Vouched (readToken : Text → Option AccessToken) (signed : List AccessToken) (request : Request)
    (identity : Identity) : Prop :=
  ∃ token, Presents readToken signed request token ∧ identity.principal = token.principal ∧
    identity.verifiedAt < seconds token.exp ∧ identity.verifiedAt ≤ identity.checkedAt

/-- `AuthGuard` let the request pass. -/
def Passed (readToken : Text → Option AccessToken) (signed : List AccessToken) (request : Request)
    (user : Option Identity) : Prop :=
  request.route.isPublic = true ∧ user = none ∨ request.route.isPublic = false ∧
    ∃ identity, user = some identity ∧ Vouched readToken signed request identity

def PhaseInv (readToken : Text → Option AccessToken) (signed : List AccessToken) (clock : Nat) :
    Phase → Prop
  | .checking request principal verifiedAt =>
      request.route.isPublic = false ∧ verifiedAt ≤ clock ∧
        ∃ token, Presents readToken signed request token ∧ principal = token.principal ∧
          verifiedAt < seconds token.exp
  | .authenticated request user | .authorized request user _ | .limited request user _ =>
      Passed readToken signed request user
  | .idle | .handled | .refused _ => True

structure Inv (hash : Token → Hash) (readToken : Text → Option AccessToken) (state : State Hash) :
    Prop where
  auth : AuthService.DenylistInv hash state.auth
  phases : ∀ call, PhaseInv readToken state.auth.signed state.clock (state.phases call)
  handled : ∀ entry ∈ state.handled, state.phases entry.call = .handled ∧
    Passed readToken state.auth.signed entry.request entry.user

omit [DecidableEq Hash] in
theorem inv_init (roles : UserId → Option UserRole) :
    Inv hash readToken (State.init roles : State Hash) where
  auth := AuthService.denylistInv_init
  phases _ := trivial
  handled _ hentry := absurd hentry List.not_mem_nil

section Monotone

variable {signed signed' : List AccessToken} {request : Request}
  (hsigned : ∀ token ∈ signed, token ∈ signed')
include hsigned

theorem Passed.mono {user : Option Identity} (hpassed : Passed readToken signed request user) :
    Passed readToken signed' request user := by
  obtain hpublic | ⟨hprivate, identity, huser, token, ⟨htoken, hread⟩, hrest⟩ := hpassed
  · exact .inl hpublic
  · exact .inr ⟨hprivate, identity, huser, token, ⟨hsigned token htoken, hread⟩, hrest⟩

theorem PhaseInv.mono {clock clock' : Nat} {phase : Phase} (hclock : clock ≤ clock')
    (hphase : PhaseInv readToken signed clock phase) : PhaseInv readToken signed' clock' phase := by
  cases phase with
  | checking request principal verifiedAt =>
      obtain ⟨hprivate, hbefore, token, ⟨htoken, hread⟩, hrest⟩ := hphase
      exact ⟨hprivate, Nat.le_trans hbefore hclock, token, ⟨hsigned token htoken, hread⟩, hrest⟩
  | authenticated request user => exact Passed.mono hsigned hphase
  | authorized request user role => exact Passed.mono hsigned hphase
  | limited request user role => exact Passed.mono hsigned hphase
  | idle | handled | refused refusal => trivial

end Monotone

omit [DecidableEq Hash] in
/-- A request that moves on and is not handled by it. -/
theorem Inv.goto {call : Call} {phase : Phase} (hinv : Inv hash readToken state)
    (hopen : state.phases call ≠ .handled)
    (hphase : PhaseInv readToken state.auth.signed state.clock phase) :
    Inv hash readToken (state.goto call phase) := by
  refine ⟨hinv.auth, ?_, ?_⟩
  · intro other
    by_cases heq : other = call
    · rw [heq, State.phases_goto_self]
      exact hphase
    · rw [State.phases_goto_of_ne _ _ heq]
      exact hinv.phases other
  · intro entry hentry
    obtain ⟨hhandled, hpassed⟩ := hinv.handled entry hentry
    have hne : entry.call ≠ call := fun heq => hopen (heq ▸ hhandled)
    exact ⟨(State.phases_goto_of_ne _ _ hne _).trans hhandled, hpassed⟩

theorem phaseInv_beginAuth {request : Request} {signed : List AccessToken} {now : Nat}
    (hunforged : ((bearerPattern (request.authorization.getD [])).bind readToken).all
      (fun token => token ∈ signed) = true) :
    PhaseInv readToken signed now (beginAuth readToken request now) := by
  unfold beginAuth
  split
  · rename_i hpublic
    exact .inl ⟨hpublic, rfl⟩
  · rename_i hprivate
    split
    · trivial
    · rename_i text htext
      split
      · trivial
      · rename_i principal hverify
        obtain ⟨token, hread, hverify⟩ := Option.bind_eq_some_iff.mp hverify
        obtain ⟨hlive, rfl⟩ := verifyAccess_eq_some hverify
        have hpresented : (bearerPattern (request.authorization.getD [])).bind readToken =
            some token := by
          rw [htext, Option.bind_some, hread]
        rw [hpresented, Option.all_some, decide_eq_true_eq] at hunforged
        exact ⟨Bool.eq_false_of_not_eq_true hprivate, Nat.le_refl _, token,
          ⟨hunforged, hpresented⟩, rfl, hlive⟩

/-- The decorators agree: whoever asks for the user is behind `AuthGuard`. -/
theorem isPublic_of_asksCurrentUser {route : Route} (hasks : route.asksCurrentUser = true) :
    route.isPublic = false := by
  revert hasks
  cases route <;> decide

theorem Passed.user_ne_none {request : Request} {user : Option Identity} {signed : List AccessToken}
    (hpassed : Passed readToken signed request user)
    (hasks : request.route.asksCurrentUser = true) :
    user ≠ none := by
  obtain ⟨hpublic, -⟩ | ⟨-, identity, rfl, -⟩ := hpassed
  · rw [isPublic_of_asksCurrentUser hasks] at hpublic
    cases hpublic
  · simp

omit [DecidableEq Hash] in
/-- `@CurrentUser()` never throws: the handler is called. -/
theorem runHandler_eq {call : Call} {request : Request} {user : Option Identity}
    {role : Option UserRole} {signed : List AccessToken}
    (hpassed : Passed readToken signed request user) :
    runHandler state call request user role =
      { (state.goto call .handled) with
        handled := state.handled ++ [⟨call, request, user, role⟩] } :=
  if_neg fun hmissing => hpassed.user_ne_none hmissing.1 hmissing.2

theorem Inv.step (hinv : Inv hash readToken state) (hunforged : Unforged readToken state action)
    (hstep : step hash readToken state action = some after) : Inv hash readToken after := by
  cases step_takes hstep with
  | auth inner auth hauth =>
      have hsigned : ∀ token ∈ state.auth.signed, token ∈ auth.signed := fun _ =>
        AuthService.signed_step hauth
      have hclock : state.clock ≤ auth.tokens.clock :=
        (AuthService.tokensInv_step hinv.auth.tokens hauth).2
      refine ⟨hinv.auth.step hauth, fun call => (hinv.phases call).mono hsigned hclock, ?_⟩
      intro entry hentry
      obtain ⟨hhandled, hpassed⟩ := hinv.handled entry hentry
      exact ⟨hhandled, hpassed.mono hsigned⟩
  | setRole userId role => exact ⟨hinv.auth, hinv.phases, hinv.handled⟩
  | arrive call request hidle =>
      exact hinv.goto (by simp [hidle]) (phaseInv_beginAuth hunforged)
  | allowed call request principal verifiedAt hphase hallowed =>
      have hchecking := hinv.phases call
      rw [hphase] at hchecking
      obtain ⟨hprivate, hbefore, token, hpresents, hprincipal, hlive⟩ := hchecking
      exact hinv.goto (by simp [hphase])
        (.inr ⟨hprivate, _, rfl, token, hpresents, hprincipal, hlive, hbefore⟩)
  | refused _ call refusal hopen => exact hinv.goto hopen trivial
  | readRole call request user role hphase hrole =>
      have hpassed := hinv.phases call
      rw [hphase] at hpassed
      exact hinv.goto (by simp [hphase]) hpassed
  | consume call result request user role hphase =>
      have hauthorized := hinv.phases call
      rw [hphase] at hauthorized
      exact hinv.goto (by simp [hphase]) hauthorized
  | handle call request user role hphase =>
      have hpassed : Passed readToken state.auth.signed request user := by
        have hphases := hinv.phases call
        rcases hphase with hphase | hphase <;> rwa [hphase] at hphases
      have hopen : state.phases call ≠ .handled := by
        rcases hphase with hphase | hphase <;> simp [hphase]
      rw [runHandler_eq hpassed]
      refine ⟨hinv.auth, ?_, ?_⟩
      · intro other
        by_cases heq : other = call
        · have hphases : (state.goto call .handled).phases other = .handled := by
            rw [heq, State.phases_goto_self]
          exact (congrArg _ hphases).mpr trivial
        · have hphases := State.phases_goto_of_ne state call heq .handled
          exact (congrArg _ hphases).mpr (hinv.phases other)
      · intro entry hentry
        rcases List.mem_append.mp hentry with hold | hnew
        · obtain ⟨hhandled, hrest⟩ := hinv.handled entry hold
          have hne : entry.call ≠ call := fun heq => hopen (heq ▸ hhandled)
          exact ⟨(State.phases_goto_of_ne _ _ hne _).trans hhandled, hrest⟩
        · rw [List.mem_singleton.mp hnew]
          exact ⟨Function.update_self _ _ _, hpassed⟩

theorem inv_reach {start : State Hash} {ok : State Hash → Action Hash → Prop}
    (hok : ∀ state action, ok state action → Unforged readToken state action)
    (hinv : Inv hash readToken start) (hreach : Reach (step hash readToken) ok start state) :
    Inv hash readToken state :=
  hreach.invariant (Inv hash readToken) hinv fun _ _ _ _ hinv hallowed hstep =>
    hinv.step (hok _ _ hallowed) hstep

/-! ### Roles -/

section Roles

variable {roles : UserId → Option UserRole} {call : Call} {request : Request}
  {user : Option Identity} {role : Option UserRole}

/-- `RolesGuard` let the request pass: in a state of the run in which the request was before it, the
database gave the user one of the roles. -/
def Entitled (hash : Token → Hash) (readToken : Text → Option AccessToken)
    (roles : UserId → Option UserRole) (state : State Hash) (call : Call) (request : Request)
    (user : Option Identity) (role : Option UserRole) : Prop :=
  request.route.requiredRoles ≠ [] → ∃ identity current before,
    user = some identity ∧ role = some current ∧ current ∈ request.route.requiredRoles ∧
    Reach (step hash readToken) (Unforged readToken) (State.init roles) before ∧
    Reach (step hash readToken) (Unforged readToken) before state ∧
    before.phases call = .authenticated request user ∧
    before.roles identity.principal.userId = some current

theorem Entitled.step (hentitled : Entitled hash readToken roles state call request user role)
    (hunforged : Unforged readToken state action)
    (hstep : step hash readToken state action = some after) :
    Entitled hash readToken roles after call request user role := by
  intro hrequired
  obtain ⟨identity, current, before, huser, hrole, hmem, hinit, hrest, hread⟩ := hentitled hrequired
  exact ⟨identity, current, before, huser, hrole, hmem, hinit, hrest.tail hunforged hstep, hread⟩

/-- The roles of the requests that are past `RolesGuard` were read. -/
def RoleInv (hash : Token → Hash) (readToken : Text → Option AccessToken)
    (roles : UserId → Option UserRole) (state : State Hash) (call : Call) : Phase → Prop
  | .authorized request user role | .limited request user role =>
      Entitled hash readToken roles state call request user role
  | .idle | .checking _ _ _ | .authenticated _ _ | .handled | .refused _ => True

structure RolesInv (hash : Token → Hash) (readToken : Text → Option AccessToken)
    (roles : UserId → Option UserRole) (state : State Hash) : Prop where
  phases : ∀ call, RoleInv hash readToken roles state call (state.phases call)
  handled : ∀ entry ∈ state.handled,
    Entitled hash readToken roles state entry.call entry.request entry.user entry.role

theorem rolesInv_init : RolesInv hash readToken roles (State.init roles : State Hash) where
  phases _ := trivial
  handled _ hentry := absurd hentry List.not_mem_nil

theorem RoleInv.step {phase : Phase} (hphase : RoleInv hash readToken roles state call phase)
    (hunforged : Unforged readToken state action)
    (hstep : step hash readToken state action = some after) :
    RoleInv hash readToken roles after call phase := by
  cases phase with
  | authorized request user role => exact Entitled.step hphase hunforged hstep
  | limited request user role => exact Entitled.step hphase hunforged hstep
  | idle | checking request principal verifiedAt | authenticated request user | handled
  | refused refusal => trivial

/-- A step that moves one request, if any, and calls no handler. -/
theorem RolesInv.goto {phase : Phase} (hinv : RolesInv hash readToken roles state)
    (hunforged : Unforged readToken state action)
    (hstep : Http.step hash readToken state action = some after)
    (hphases : ∀ other, other ≠ call → after.phases other = state.phases other)
    (hcall : after.phases call = phase) (hphase : RoleInv hash readToken roles after call phase)
    (hhandled : after.handled = state.handled) : RolesInv hash readToken roles after := by
  constructor
  · intro other
    by_cases heq : other = call
    · rw [heq, hcall]
      exact hphase
    · rw [hphases other heq]
      exact (hinv.phases other).step hunforged hstep
  · intro entry hentry
    rw [hhandled] at hentry
    exact (hinv.handled entry hentry).step hunforged hstep

theorem RolesInv.step (hinv : RolesInv hash readToken roles state)
    (hreach : Reach (Http.step hash readToken) (Unforged readToken) (State.init roles) state)
    (hunforged : Unforged readToken state action)
    (hstep : Http.step hash readToken state action = some after) :
    RolesInv hash readToken roles after := by
  have hothers : ∀ (call : Call) (phase : Phase) other, other ≠ call →
      (state.goto call phase).phases other = state.phases other :=
    fun call phase other hne => State.phases_goto_of_ne state call hne phase
  cases step_takes hstep with
  | auth inner auth hauth =>
      exact ⟨fun call => (hinv.phases call).step hunforged hstep,
        fun entry hentry => (hinv.handled entry hentry).step hunforged hstep⟩
  | setRole userId role =>
      exact ⟨fun call => (hinv.phases call).step hunforged hstep,
        fun entry hentry => (hinv.handled entry hentry).step hunforged hstep⟩
  | arrive call request hidle =>
      refine hinv.goto hunforged hstep (hothers call _) (State.phases_goto_self _ _ _) ?_ rfl
      unfold beginAuth
      split
      · trivial
      · split
        · trivial
        · split <;> trivial
  | allowed call request principal verifiedAt hphase hallowed =>
      exact hinv.goto hunforged hstep (hothers call _) (State.phases_goto_self _ _ _) trivial rfl
  | refused _ call refusal hopen =>
      exact hinv.goto hunforged hstep (hothers call _) (State.phases_goto_self _ _ _) trivial rfl
  | readRole call request user role hphase hrole =>
      refine hinv.goto hunforged hstep (hothers call _) (State.phases_goto_self _ _ _) ?_ rfl
      intro hrequired
      obtain ⟨identity, current, huser, hcurrent, hread, hmem⟩ := hrole hrequired
      exact ⟨identity, current, state, huser, hcurrent, hmem, hreach,
        Reach.refl.tail hunforged hstep, hphase, hread⟩
  | consume call result request user role hphase =>
      have hauthorized := hinv.phases call
      rw [hphase] at hauthorized
      exact hinv.goto hunforged hstep (hothers call _) (State.phases_goto_self _ _ _)
        (Entitled.step hauthorized hunforged hstep) rfl
  | handle call request user role hphase =>
      have hentitled : Entitled hash readToken roles state call request user role := by
        have hphases := hinv.phases call
        rcases hphase with hphase | hphase <;> rwa [hphase] at hphases
      have hstepped := hentitled.step hunforged hstep
      have hkept : ∀ other,
          RoleInv hash readToken roles (runHandler state call request user role) other
          (state.phases other) := fun other => (hinv.phases other).step hunforged hstep
      have hold := fun entry hentry => (hinv.handled entry hentry).step hunforged hstep
      unfold runHandler at hstepped hkept hold ⊢
      split
      · rename_i hmissing
        rw [if_pos hmissing] at hkept hold
        refine ⟨fun other => ?_, hold⟩
        by_cases heq : other = call
        · rw [heq, State.phases_goto_self]
          trivial
        · rw [hothers call _ other heq]
          exact hkept other
      · rename_i hpresent
        rw [if_neg hpresent] at hstepped hkept hold
        refine ⟨fun other => ?_, fun entry hentry => ?_⟩
        · by_cases heq : other = call
          · have hphases : (state.goto call .handled).phases other = .handled := by
              rw [heq, State.phases_goto_self]
            exact (congrArg _ hphases).mpr trivial
          · exact (congrArg _ (hothers call .handled other heq)).mpr (hkept other)
        · rcases List.mem_append.mp hentry with hbefore | hnew
          · exact hold entry hbefore
          · rw [List.mem_singleton.mp hnew]
            exact hstepped

theorem rolesInv_reach
    (hreach : Reach (step hash readToken) (Unforged readToken) (State.init roles) state) :
    RolesInv hash readToken roles state :=
  hreach.invariant (RolesInv hash readToken roles) rolesInv_init
    fun _ _ _ hbefore hinv hunforged hstep => hinv.step hbefore hunforged hstep

end Roles

/-- Complete mediation: every handler that was called is public, or ran for the holder of a token
that the service has signed, that came with the request and had not expired when it was verified; a
handler with roles ran for a user to whom the database gave one of them while the guard asked; a
handler that asks for the user had one. -/
theorem handled_mediated {roles : UserId → Option UserRole}
    (hreach : Reach (step hash readToken) (Unforged readToken) (State.init roles) state) :
    ∀ entry ∈ state.handled,
      Passed readToken state.auth.signed entry.request entry.user ∧
      Entitled hash readToken roles state entry.call entry.request entry.user entry.role ∧
      (entry.request.route.asksCurrentUser = true → entry.user ≠ none) := by
  have hinv := inv_reach (fun _ _ hunforged => hunforged) (inv_init roles) hreach
  intro entry hentry
  have hpassed := (hinv.handled entry hentry).2
  exact ⟨hpassed, (rolesInv_reach hreach).handled entry hentry, hpassed.user_ne_none⟩

/-! ### Requests that come late -/

section Late

variable (goodUser : Option Identity → Prop) (goodRole : Request → Option Identity → Prop)

/-- A request that is past a guard has what that guard grants. -/
def Granted : Phase → Prop
  | .authenticated _ user => goodUser user
  | .authorized request user _ | .limited request user _ => goodUser user ∧ goodRole request user
  | .idle | .checking _ _ _ | .handled | .refused _ => True

variable {start : State Hash} {ok : State Hash → Action Hash → Prop} {call : Call}

/-- What both guards grant to a request in every state from `start` on it has as long as it is on
its way, and so has the handler that is called for it. -/
theorem late_handled (hok : ∀ state action, ok state action → Unforged readToken state action)
    (hinv : Inv hash readToken start) (hopen : start.phases call ≠ .handled)
    (hstart : Granted goodUser goodRole (start.phases call)) (hpublic : goodUser none)
    (hcheck : ∀ state request principal verifiedAt, Reach (step hash readToken) ok start state →
      state.phases call = .checking request principal verifiedAt →
      state.auth.denylist.isDenied principal.jti principal.familyId state.clock = false →
      goodUser (some ⟨principal, verifiedAt, state.clock⟩))
    (hrole : ∀ state action request user, ok state action →
      (request.route.requiredRoles ≠ [] → ∃ identity current, user = some identity ∧
        state.roles identity.principal.userId = some current ∧
          current ∈ request.route.requiredRoles) →
      goodRole request user)
    (hreach : Reach (step hash readToken) ok start state) :
    Granted goodUser goodRole (state.phases call) ∧ ∀ entry ∈ state.handled, entry.call = call →
      goodUser entry.user ∧ goodRole entry.request entry.user := by
  refine hreach.invariant (fun state => Granted goodUser goodRole (state.phases call) ∧
    ∀ entry ∈ state.handled, entry.call = call →
      goodUser entry.user ∧ goodRole entry.request entry.user) ⟨hstart, ?_⟩ ?_
  · intro entry hentry heq
    exact absurd (heq ▸ (hinv.handled entry hentry).1) hopen
  intro before action after hbefore hgranted hallowed hstep
  have hinv := inv_reach hok hinv hbefore
  have hgoto : ∀ {mover : Call} {phase : Phase}, (mover = call → Granted goodUser goodRole phase) →
      Granted goodUser goodRole ((before.goto mover phase).phases call) := by
    intro mover phase hphase
    by_cases heq : call = mover
    · subst heq
      rw [State.phases_goto_self]
      exact hphase rfl
    · rw [State.phases_goto_of_ne _ _ heq]
      exact hgranted.1
  cases step_takes hstep with
  | auth inner auth hauth => exact hgranted
  | setRole userId role => exact hgranted
  | arrive mover request hidle =>
      refine ⟨hgoto fun _ => ?_, hgranted.2⟩
      unfold beginAuth
      split
      · exact hpublic
      · split
        · trivial
        · split <;> trivial
  | allowed mover request principal verifiedAt hphase hnotDenied =>
      refine ⟨hgoto fun heq => ?_, hgranted.2⟩
      exact hcheck before request principal verifiedAt hbefore (heq ▸ hphase) hnotDenied
  | refused _ mover refusal hopen => exact ⟨hgoto fun _ => trivial, hgranted.2⟩
  | readRole mover request user role hphase hrequired =>
      refine ⟨hgoto fun heq => ?_, hgranted.2⟩
      have hauthenticated := hgranted.1
      rw [← heq, hphase] at hauthenticated
      refine ⟨hauthenticated, hrole before _ request user hallowed fun hne => ?_⟩
      obtain ⟨identity, current, huser, -, hcurrent⟩ := hrequired hne
      exact ⟨identity, current, huser, hcurrent⟩
  | consume mover result request user role hphase =>
      refine ⟨hgoto fun heq => ?_, hgranted.2⟩
      have hauthorized := hgranted.1
      rw [← heq, hphase] at hauthorized
      exact hauthorized
  | handle mover request user role hphase =>
      have hphases := hinv.phases mover
      have hpassed : Passed readToken before.auth.signed request user := by
        rcases hphase with hphase | hphase <;> rwa [hphase] at hphases
      rw [runHandler_eq hpassed]
      refine ⟨hgoto fun _ => trivial, fun entry hentry heq => ?_⟩
      rcases List.mem_append.mp hentry with hold | hnew
      · exact hgranted.2 entry hold heq
      · rw [List.mem_singleton.mp hnew] at heq ⊢
        have hauthorized := hgranted.1
        rw [← heq] at hauthorized
        rcases hphase with hphase | hphase <;> rw [hphase] at hauthorized <;> exact hauthorized

end Late

theorem logouts_reach {start : State Hash} {ok : State Hash → Action Hash → Prop}
    {entry : AccessPrincipal × Nat} (hentry : entry ∈ start.auth.logouts)
    (hreach : Reach (step hash readToken) ok start state) : entry ∈ state.auth.logouts := by
  refine hreach.invariant (fun state => entry ∈ state.auth.logouts) hentry ?_
  intro before action after _ hold _ hstep
  cases step_takes hstep with
  | auth inner auth hauth => exact AuthService.logouts_step hauth hold
  | handle call request user role hphase =>
      unfold runHandler
      split <;> exact hold
  | _ => exact hold

theorem denied_reach {start : State Hash} {ok : State Hash → Action Hash → Prop}
    {entry : FamilyId × Nat} (hentry : entry ∈ start.auth.denied)
    (hreach : Reach (step hash readToken) ok start state) : entry ∈ state.auth.denied := by
  refine hreach.invariant (fun state => entry ∈ state.auth.denied) hentry ?_
  intro before action after _ hold _ hstep
  cases step_takes hstep with
  | auth inner auth hauth => exact AuthService.denied_step hauth hold
  | handle call request user role hphase =>
      unfold runHandler
      split <;> exact hold
  | _ => exact hold

/-- `AuthGuard` has yet to look the token up. -/
def Phase.unchecked : Phase → Bool
  | .idle | .checking _ _ _ => true
  | .authenticated _ _ | .authorized _ _ _ | .limited _ _ _ | .handled | .refused _ => false

/-- `RolesGuard` has yet to read the role. -/
def Phase.unread : Phase → Bool
  | .idle | .checking _ _ _ | .authenticated _ _ => true
  | .authorized _ _ _ | .limited _ _ _ | .handled | .refused _ => false

/-- The user of a request that is past `AuthGuard`. -/
def Phase.user : Phase → Option Identity
  | .authenticated _ user | .authorized _ user _ | .limited _ user _ => user
  | .idle | .checking _ _ _ | .handled | .refused _ => none

/-- What was revoked by `start` and passes for good all the same: a token that ran out while the
guard waited for Redis, or one whose family was revoked an access TTL ago. -/
def Outlived (start : State Hash) (user : Option Identity) : Prop :=
  ∀ identity, user = some identity →
    (∀ logout ∈ start.auth.logouts, identity.principal.jti = logout.1.jti →
      identity.verifiedAt < seconds identity.principal.expiresAt ∧
        seconds identity.principal.expiresAt ≤ identity.checkedAt) ∧
    ∀ denial ∈ start.auth.denied, identity.principal.familyId = denial.1 →
      denial.2 + seconds accessTtlSec ≤ identity.checkedAt

/-- After a logout has returned, its token passes the lookup no more, whatever else goes on: of a
request that had not been checked by then, it does so only if it ran out while the guard waited for
Redis. After a reuse was answered, no token of the family passes for one access TTL. So no handler
is called with them. -/
theorem revoked_refused {roles : UserId → Option UserRole} {start : State Hash} {call : Call}
    (hbefore : Reach (step hash readToken) (Unforged readToken) (State.init roles) start)
    (hcall : (start.phases call).unchecked = true)
    (hreach : Reach (step hash readToken) (Unforged readToken) start state) :
    Outlived start (state.phases call).user ∧
      ∀ entry ∈ state.handled, entry.call = call → Outlived start entry.user := by
  have hinv := inv_reach (fun _ _ hunforged => hunforged) (inv_init roles) hbefore
  have hopen : start.phases call ≠ .handled := fun hhandled => by
    rw [hhandled] at hcall
    cases hcall
  have hstart : Granted (Outlived start) (fun _ _ => True) (start.phases call) := by
    cases hphase : start.phases call <;> simp_all [Phase.unchecked, Granted]
  have hcheck : ∀ middle request principal verifiedAt,
      Reach (step hash readToken) (Unforged readToken) start middle →
      middle.phases call = .checking request principal verifiedAt →
      middle.auth.denylist.isDenied principal.jti principal.familyId middle.clock = false →
      Outlived start (some ⟨principal, verifiedAt, middle.clock⟩) := by
    intro middle request principal verifiedAt hmiddle hphase hallowed identity hidentity
    cases hidentity
    have hinv := inv_reach (fun _ _ hunforged => hunforged) hinv hmiddle
    have hchecking := hinv.phases call
    rw [hphase] at hchecking
    obtain ⟨-, -, token, hpresents, rfl, hlive⟩ := hchecking
    refine ⟨fun logout hlogout hjti => ⟨hlive, ?_⟩, fun denial hdenial hfamily => ?_⟩
    · exact AuthService.expired_of_not_denied hinv.auth (logouts_reach hlogout hmiddle)
        hpresents.1 hjti
        hallowed
    · dsimp only at hfamily
      rw [hfamily] at hallowed
      exact AuthService.ttl_of_not_denied hinv.auth (denied_reach hdenial hmiddle) hallowed
  obtain ⟨hphase, hhandled⟩ := late_handled (Outlived start) (fun _ _ => True)
    (fun _ _ hunforged => hunforged) hinv hopen hstart nofun
    hcheck (fun _ _ _ _ _ _ => trivial) hreach
  refine ⟨?_, fun entry hentry heq => (hhandled entry hentry heq).1⟩
  cases heq : state.phases call with
  | authenticated request user =>
      rw [heq] at hphase
      exact hphase
  | authorized request user role =>
      rw [heq] at hphase
      exact hphase.1
  | limited request user role =>
      rw [heq] at hphase
      exact hphase.1
  | idle | checking request principal verifiedAt | handled | refused refusal => exact nofun

/-- What two texts in the place of a token tell: user 7 has logged in as a seller, user 8 as an
admin. -/
def sampleReadToken (text : Text) : Option AccessToken :=
  if text = ['7'] then some (signAccess 7 .seller 0 100 0)
  else if text = ['8'] then some (signAccess 8 .admin 1 101 0)
  else none

def bearerRequest (route : Route) (text : Text) : Request :=
  ⟨route, some ("Bearer ".toList ++ text)⟩

def sampleRoles : UserId → Option UserRole := fun userId =>
  if userId = 7 then some .seller else if userId = 8 then some .admin else none

def logins : List (Action Token) :=
  [.auth (.login 1 (some (7, .seller))), .auth (.issue 1 0 (sampleToken 'A')), .auth (.sign 1 100),
    .auth (.login 2 (some (8, .admin))), .auth (.issue 2 1 (sampleToken 'B')), .auth (.sign 2 101)]

def afterLogout : List (Action Token) :=
  logins ++ [.auth (.logout 3 (signAccess 7 .seller 0 100 0)),
    .auth (.statement (.visit 3 (sampleToken 'A'))), .auth (.statement (.commit 3)),
    .auth (.denyAccess 3)]

/-- The token runs out while the guard waits for Redis. -/
def lateRequest : List (Action Token) :=
  [.auth (.tick 599999), .arrive 11 (bearerRequest .listOrders ['7']), .auth (.tick 1),
    .isDenied 11,
    .readRole 11, .handle 11]

def lateIdentity : Identity := ⟨(signAccess 7 .seller 0 100 0).principal, 599999, 600000⟩

/-- User 7 was made a customer; both users ask to create a product with the tokens they had
before. -/
def afterDemotion : List (Action Token) := logins ++ [.setRole 7 (some .customer)]

def createProducts : List (Action Token) :=
  [.arrive 11 (bearerRequest .createProduct ['7']), .arrive 12 (bearerRequest .createProduct ['8']),
    .isDenied 11, .isDenied 12, .readRole 11, .readRole 12, .handle 12]

theorem handled_mediated_late :
    (∃ state : State Token, Reach (step id sampleReadToken) (Unforged sampleReadToken)
      (State.init sampleRoles) state ∧
      ⟨11, bearerRequest .listOrders ['7'], some lateIdentity, none⟩ ∈ state.handled ∧
      Passed sampleReadToken state.auth.signed (bearerRequest .listOrders ['7'])
        (some lateIdentity)) ∧
    ∃ state : State Token, Reach (step id sampleReadToken) (Unforged sampleReadToken)
      (State.init sampleRoles) state ∧
      ∃ entry ∈ state.handled, entry.request.route.requiredRoles = [.seller, .admin] ∧
        Entitled id sampleReadToken sampleRoles state entry.call entry.request entry.user
          entry.role := by
  constructor
  · obtain ⟨state, hreach, hcheck⟩ : ∃ state : State Token, Reach (step id sampleReadToken)
        (Unforged sampleReadToken) (State.init sampleRoles) state ∧
        decide (⟨11, bearerRequest .listOrders ['7'], some lateIdentity, none⟩ ∈
          state.handled) = true :=
      exists_reach_of_runWithin (afterLogout ++ lateRequest) (by decide +kernel)
    have hentry := of_decide_eq_true hcheck
    exact ⟨state, hreach, hentry, (handled_mediated hreach _ hentry).1⟩
  · obtain ⟨state, hreach, hcheck⟩ : ∃ state : State Token, Reach (step id sampleReadToken)
        (Unforged sampleReadToken) (State.init sampleRoles) state ∧
        decide (∃ entry ∈ state.handled,
          entry.request.route.requiredRoles = [.seller, .admin]) = true :=
      exists_reach_of_runWithin (afterDemotion ++ createProducts) (by decide +kernel)
    obtain ⟨entry, hentry, hroles⟩ := of_decide_eq_true hcheck
    exact ⟨state, hreach, entry, hentry, hroles, (handled_mediated hreach entry hentry).2.1⟩

theorem revoked_refused_late :
    ∃ start state : State Token, (start.phases 11).unchecked = true ∧
      start.auth.logouts = [((signAccess 7 .seller 0 100 0).principal, 0)] ∧
      Reach (step id sampleReadToken) (Unforged sampleReadToken) start state ∧
      ⟨11, bearerRequest .listOrders ['7'], some lateIdentity, none⟩ ∈ state.handled ∧
      seconds lateIdentity.principal.expiresAt ≤ lateIdentity.checkedAt := by
  obtain ⟨start, hstart⟩ : ∃ start : State Token, runWithin (step id sampleReadToken)
      (Unforged sampleReadToken) (State.init sampleRoles) afterLogout = some start :=
    Option.isSome_iff_exists.mp (by decide +kernel)
  have hchecks : ((runWithin (step id sampleReadToken) (Unforged sampleReadToken)
      (State.init sampleRoles) afterLogout).bind fun start : State Token =>
        some (decide ((start.phases 11).unchecked = true ∧
          start.auth.logouts = [((signAccess 7 .seller 0 100 0).principal, 0)]) &&
      (runWithin (step id sampleReadToken) (Unforged sampleReadToken) start lateRequest).any
        fun state => decide
          (⟨11, bearerRequest .listOrders ['7'], some lateIdentity, none⟩ ∈ state.handled))) =
      some true := by
    decide +kernel
  rw [hstart, Option.bind_some, Option.some.injEq, Bool.and_eq_true, decide_eq_true_eq] at hchecks
  obtain ⟨⟨hcall, hlogouts⟩, hrun⟩ := hchecks
  obtain ⟨state, hreach, hhandled⟩ := exists_reach_of_runWithin _ hrun
  have hentry := of_decide_eq_true hhandled
  have hlate :=
    (revoked_refused (reach_of_runWithin hstart) hcall hreach).2 _ hentry rfl lateIdentity rfl
  exact ⟨start, state, hcall, hlogouts, hreach, hentry,
    (hlate.1 _ (by rw [hlogouts]; exact List.mem_singleton_self _) rfl).2⟩

/-- The user has none of these roles, or is gone. -/
def Lacks (required : List UserRole) (userId : UserId) (state : State Hash) : Prop :=
  ∀ role, state.roles userId = some role → role ∉ required

/-- The loss of a role takes effect at once, whatever the tokens of the user say: while the database
does not give him one of the roles, no request of his that `RolesGuard` had not passed yet reaches a
handler that asks for them. -/
theorem demoted_refused {roles : UserId → Option UserRole} {start : State Hash} {call : Call}
    {userId : UserId} {required : List UserRole}
    (hbefore : Reach (step hash readToken) (Unforged readToken) (State.init roles) start)
    (hcall : (start.phases call).unread = true)
    (hreach : Reach (step hash readToken)
      (fun state action => Unforged readToken state action ∧ Lacks required userId state)
      start state) :
    ∀ entry ∈ state.handled, entry.call = call → entry.request.route.requiredRoles = required →
      required ≠ [] → ∀ identity, entry.user = some identity →
        identity.principal.userId ≠ userId := by
  have hinv := inv_reach (fun _ _ hunforged => hunforged) (inv_init roles) hbefore
  intro entry hentry heq hroute hrequired identity huser huserId
  have hopen : start.phases call ≠ .handled := fun hhandled => by
    rw [hhandled] at hcall
    cases hcall
  have hgood := late_handled (fun _ => True) (fun request user =>
      request.route.requiredRoles = required →
        ∀ identity, user = some identity → identity.principal.userId ≠ userId)
    (fun _ _ hallowed => hallowed.1) hinv hopen ?_ trivial (fun _ _ _ _ _ _ _ => trivial) ?_ hreach
  · exact (hgood.2 entry hentry heq).2 hroute identity huser huserId
  · cases hphase : start.phases call <;> simp_all [Phase.unread, Granted]
  · intro middle action request user hallowed hread hroute identity hidentity hsame
    obtain ⟨identity', current, hidentity', hcurrent, hmem⟩ := hread (hroute ▸ hrequired)
    rw [hidentity] at hidentity'
    cases hidentity'
    rw [hsame] at hcurrent
    exact hallowed.2 current hcurrent (hroute ▸ hmem)

omit [DecidableEq Hash] in
theorem lacks_iff {required : List UserRole} {userId : UserId} :
    ((state.roles userId).all fun role => role ∉ required) = true ↔
    Lacks required userId state := by
  unfold Lacks
  cases state.roles userId <;> simp

instance (required : List UserRole) (userId : UserId) (state : State Hash) :
    Decidable (Lacks required userId state) :=
  decidable_of_iff _ lacks_iff

theorem demoted_refused_seller :
    ∃ start state : State Token, (start.phases 12).unread = true ∧
      Reach (step id sampleReadToken) (fun state action => Unforged sampleReadToken state action ∧
        Lacks [.seller, .admin] 7 state) start state ∧
      state.phases 11 = .refused (.plain 403 "Недостатньо прав: потрібна роль seller або admin") ∧
      ∃ entry ∈ state.handled, entry.call = 12 ∧
        ∀ identity, entry.user = some identity → identity.principal.userId ≠ 7 := by
  obtain ⟨start, hstart⟩ : ∃ start : State Token, runWithin (step id sampleReadToken)
      (Unforged sampleReadToken) (State.init sampleRoles) afterDemotion = some start :=
    Option.isSome_iff_exists.mp (by decide +kernel)
  have hchecks : ((runWithin (step id sampleReadToken) (Unforged sampleReadToken)
      (State.init sampleRoles) afterDemotion).bind fun start : State Token =>
        some (decide ((start.phases 12).unread = true) &&
      (runWithin (step id sampleReadToken) (fun state action =>
        Unforged sampleReadToken state action ∧ Lacks [.seller, .admin] 7 state)
          start createProducts).any fun state =>
        decide (state.phases 11 =
            .refused (.plain 403 "Недостатньо прав: потрібна роль seller або admin") ∧
          ∃ entry ∈ state.handled, entry.call = 12 ∧
            entry.request.route.requiredRoles = [.seller, .admin]))) = some true := by
    decide +kernel
  rw [hstart, Option.bind_some, Option.some.injEq, Bool.and_eq_true, decide_eq_true_eq] at hchecks
  obtain ⟨hcall, hrun⟩ := hchecks
  obtain ⟨state, hreach, hhandled⟩ := exists_reach_of_runWithin _ hrun
  obtain ⟨hrefused, entry, hentry, heq, hroute⟩ := of_decide_eq_true hhandled
  exact ⟨start, state, hcall, hreach, hrefused, entry, hentry, heq,
    demoted_refused (reach_of_runWithin hstart) hcall hreach entry hentry heq hroute (by simp)⟩

end Marketplace.Http
