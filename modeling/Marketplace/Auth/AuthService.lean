import Marketplace.Auth.AccessToken
import Marketplace.Auth.RevokeFamily

/-!
# `AuthService`: login, refresh and logout

The handlers on top of `RefreshTokenService`. Every `await` is a point where other calls move:
between the COMMIT of a rotation and the signature of the access token lie the lookup of the user
and any delay. Redis answers; the database may abort any transaction.
-/

namespace Marketplace.AuthService

open ReadCommitted Transition
open RefreshToken (FamilyId Token RotationResult RejectReason Owner FamilyRevoked)

/-- What a handler waits for. -/
inductive Handler where
  | idle
  /-- `login` has checked the password, `issue` is next. -/
  | issuing (userId : UserId) (role : UserRole)
  /-- `refresh` waits for `rotate`. -/
  | rotating
  /-- The new refresh token is committed and the user is read: `buildPair` is next. -/
  | signing (userId : UserId) (role : UserRole) (familyId : FamilyId) (refreshToken : Token)
  /-- `logout` waits for `revokeFamily`. -/
  | loggingOut (principal : AccessPrincipal)
  | returned (accessToken : AccessToken) (refreshToken : Token)
  | loggedOut
  | unauthorized
  | threw
  deriving DecidableEq

def Handler.isActive : Handler → Bool
  | .issuing _ _ | .rotating | .signing _ _ _ _ | .loggingOut _ => true
  | .idle | .returned _ _ | .loggedOut | .unauthorized | .threw => false

/-- The last four fields are history: the calls that were started, the access tokens signed, and the
times at which `denylist.revokeFamily` and whole logouts succeeded. -/
structure State (Hash : Type) where
  tokens : RefreshToken.State Hash
  handlers : Call → Handler
  denylist : Denylist
  started : List Call
  signed : List AccessToken
  denied : List (FamilyId × Nat)
  logouts : List (AccessPrincipal × Nat)

inductive Action (Hash : Type) where
  | tick (elapsed : Nat)
  | login (call : Call) (user : Option (UserId × UserRole))
  | issue (call : Call) (familyId : FamilyId) (token : Token)
  | refresh (call : Call) (token : Token)
  | statement (inner : RefreshToken.Action Hash)
  | readUser (call : Call) (role : Option UserRole)
  | sign (call : Call) (jti : Jti)
  | denyFamily (call : Call)
  | reject (call : Call)
  | logout (call : Call) (token : AccessToken)
  | denyAccess (call : Call)

/-- A statement inside a transaction of `RefreshTokenService`, which is what its callers wait
for. -/
def isStatement {Hash : Type} : RefreshToken.Action Hash → Bool
  | .select _ | .lock _ | .markUsed _ | .insert _ _ | .startRevoke _ | .visit _ _ | .commit _
  | .abort _ => true
  | .tick _ | .issue _ _ _ _ | .rotate _ _ | .revokeFamily _ _ => false

section Handlers

variable {Hash : Type} [DecidableEq Hash] (hash : Token → Hash) (state : State Hash) (call : Call)

def State.init : State Hash where
  tokens := RefreshToken.State.init
  handlers := fun _ => .idle
  denylist := Denylist.empty
  started := []
  signed := []
  denied := []
  logouts := []

def State.goto (handler : Handler) : State Hash :=
  { state with handlers := Function.update state.handlers call handler }

/-- `user` is what the query by email returned, if the password matched. -/
def login (user : Option (UserId × UserRole)) : Option (State Hash) :=
  match state.handlers call with
  | .idle =>
      let next := match user with
        | some (userId, role) => Handler.issuing userId role
        | none => .unauthorized
      some { (state.goto call next) with started := call :: state.started }
  | _ => none

def issue (familyId : FamilyId) (token : Token) : Option (State Hash) :=
  match state.handlers call with
  | .issuing userId role =>
      (RefreshToken.issue hash state.tokens call userId familyId token).map fun tokens =>
        { (state.goto call (.signing userId role familyId token)) with tokens := tokens }
  | _ => none

def refresh (token : Token) : Option (State Hash) :=
  match state.handlers call with
  | .idle =>
      (RefreshToken.rotate state.tokens call token).map fun tokens =>
        { (state.goto call .rotating) with tokens := tokens, started := call :: state.started }
  | _ => none

def statement (inner : RefreshToken.Action Hash) : Option (State Hash) :=
  if isStatement inner then
    (RefreshToken.step hash state.tokens inner).map fun tokens => { state with tokens := tokens }
  else none

/-- `users.findOneBy` after a rotation; `none` is a user that is gone. -/
def readUser (role : Option UserRole) : Option (State Hash) :=
  match state.handlers call, state.tokens.calls call with
  | .rotating, .answered _ (.rotated owner token) =>
      match role with
      | some role => some (state.goto call (.signing owner.userId role owner.familyId token))
      | none => some (state.goto call .unauthorized)
  | _, _ => none

/-- `buildPair`. The `jti` is a fresh UUID. -/
def sign (jti : Jti) : Option (State Hash) :=
  match state.handlers call with
  | .signing userId role familyId refreshToken =>
      if jti ∈ state.signed.map AccessToken.jti then none
      else
        let accessToken := signAccess userId role familyId jti state.tokens.clock
        some { (state.goto call (.returned accessToken refreshToken)) with
          signed := accessToken :: state.signed }
  | _ => none

/-- A reuse: the family goes on the denylist, then the 401. -/
def denyFamily : Option (State Hash) :=
  match state.handlers call, state.tokens.calls call with
  | .rotating, .answered _ (.rejected .reused (some owner) _) =>
      some { (state.goto call .unauthorized) with
        denylist := state.denylist.revokeFamily owner.familyId state.tokens.clock
        denied := (owner.familyId, state.tokens.clock) :: state.denied }
  | _, _ => none

/-- Any other rejection is the same 401; an error of the database passes through. -/
def reject : Option (State Hash) :=
  match state.handlers call, state.tokens.calls call with
  | .rotating, .answered _ (.rejected reason _ _) =>
      if reason = .reused then none else some (state.goto call .unauthorized)
  | .rotating, .threw => some (state.goto call .threw)
  | .loggingOut _, .threw => some (state.goto call .threw)
  | _, _ => none

/-- The guard has verified `token` some time before. -/
def logout (token : AccessToken) : Option (State Hash) :=
  match state.handlers call with
  | .idle =>
      if token ∈ state.signed then
        (RefreshToken.revokeFamily state.tokens call token.familyId).map fun tokens =>
          { (state.goto call (.loggingOut token.principal)) with
            tokens := tokens
            started := call :: state.started }
      else none
  | _ => none

def denyAccess : Option (State Hash) :=
  match state.handlers call, state.tokens.calls call with
  | .loggingOut principal, .revoked _ _ =>
      some { (state.goto call .loggedOut) with
        denylist :=
          (state.denylist.revokeAccess principal.jti principal.expiresAt state.tokens.clock).1
        logouts := (principal, state.tokens.clock) :: state.logouts }
  | _, _ => none

end Handlers

def step {Hash : Type} [DecidableEq Hash] (hash : Token → Hash) (state : State Hash) :
    Action Hash → Option (State Hash)
  | .tick elapsed =>
      some { state with tokens := { state.tokens with clock := state.tokens.clock + elapsed } }
  | .login call user => login state call user
  | .issue call familyId token => issue hash state call familyId token
  | .refresh call token => refresh state call token
  | .statement inner => statement hash state inner
  | .readUser call role => readUser state call role
  | .sign call jti => sign state call jti
  | .denyFamily call => denyFamily state call
  | .reject call => reject state call
  | .logout call token => logout state call token
  | .denyAccess call => denyAccess state call

/-! ### The inversion of a step -/

inductive Handles {Hash : Type} [DecidableEq Hash] (hash : Token → Hash) (before : State Hash) :
    Action Hash → State Hash → Prop
  | tick (elapsed : Nat) :
      Handles hash before (.tick elapsed)
        { before with tokens := { before.tokens with clock := before.tokens.clock + elapsed } }
  | login (call : Call) (user : Option (UserId × UserRole)) (next : Handler)
      (hidle : before.handlers call = .idle)
      (hnext : next = .unauthorized ∨ ∃ userId role, next = .issuing userId role) :
      Handles hash before (.login call user)
        { (before.goto call next) with started := call :: before.started }
  | issue (call : Call) (userId : UserId) (role : UserRole) (familyId : FamilyId) (token : Token)
      (tokens : RefreshToken.State Hash) (hhandler : before.handlers call = .issuing userId role)
      (htokens : RefreshToken.step hash before.tokens (.issue call userId familyId token) =
        some tokens) :
      Handles hash before (.issue call familyId token)
        { (before.goto call (.signing userId role familyId token)) with tokens := tokens }
  | refresh (call : Call) (token : Token) (tokens : RefreshToken.State Hash)
      (hidle : before.handlers call = .idle)
      (htokens : RefreshToken.step hash before.tokens (.rotate call token) = some tokens) :
      Handles hash before (.refresh call token)
        { (before.goto call .rotating) with tokens := tokens, started := call :: before.started }
  | statement (inner : RefreshToken.Action Hash) (tokens : RefreshToken.State Hash)
      (hinner : isStatement inner = true)
      (htokens : RefreshToken.step hash before.tokens inner = some tokens) :
      Handles hash before (.statement inner) { before with tokens := tokens }
  | readUser (call : Call) (role : Option UserRole) (presented token : Token) (owner : Owner)
      (next : Handler) (hhandler : before.handlers call = .rotating)
      (hanswer : before.tokens.calls call = .answered presented (.rotated owner token))
      (hnext : next = .unauthorized ∨
        ∃ role, next = .signing owner.userId role owner.familyId token) :
      Handles hash before (.readUser call role) (before.goto call next)
  | sign (call : Call) (jti : Jti) (userId : UserId) (role : UserRole) (familyId : FamilyId)
      (refreshToken : Token)
      (hhandler : before.handlers call = .signing userId role familyId refreshToken)
      (hfresh : jti ∉ before.signed.map AccessToken.jti) :
      Handles hash before (.sign call jti)
        { (before.goto call (.returned
            (signAccess userId role familyId jti before.tokens.clock) refreshToken)) with
          signed := signAccess userId role familyId jti before.tokens.clock :: before.signed }
  | denyFamily (call : Call) (presented : Token) (owner : Owner) (revokedRows : Option Nat)
      (hhandler : before.handlers call = .rotating)
      (hanswer : before.tokens.calls call =
        .answered presented (.rejected .reused (some owner) revokedRows)) :
      Handles hash before (.denyFamily call)
        { (before.goto call .unauthorized) with
          denylist := before.denylist.revokeFamily owner.familyId before.tokens.clock
          denied := (owner.familyId, before.tokens.clock) :: before.denied }
  | reject (call : Call) (next : Handler) (hactive : (before.handlers call).isActive = true)
      (hanswer : (before.tokens.calls call).isOpen = false)
      (hnext : next = .unauthorized ∨ next = .threw) :
      Handles hash before (.reject call) (before.goto call next)
  | logout (call : Call) (token : AccessToken) (tokens : RefreshToken.State Hash)
      (hidle : before.handlers call = .idle) (hsigned : token ∈ before.signed)
      (htokens : RefreshToken.step hash before.tokens (.revokeFamily call token.familyId) =
        some tokens) :
      Handles hash before (.logout call token)
        { (before.goto call (.loggingOut token.principal)) with
          tokens := tokens
          started := call :: before.started }
  | denyAccess (call : Call) (principal : AccessPrincipal) (familyId : FamilyId) (affected : Nat)
      (hhandler : before.handlers call = .loggingOut principal)
      (hanswer : before.tokens.calls call = .revoked familyId affected) :
      Handles hash before (.denyAccess call)
        { (before.goto call .loggedOut) with
          denylist :=
            (before.denylist.revokeAccess principal.jti principal.expiresAt before.tokens.clock).1
          logouts := (principal, before.tokens.clock) :: before.logouts }

theorem step_handles {Hash : Type} [DecidableEq Hash] {hash : Token → Hash}
    {state after : State Hash} {action : Action Hash}
    (hstep : step hash state action = some after) :
    Handles hash state action after := by
  cases action with
  | tick elapsed =>
      cases hstep
      exact .tick elapsed
  | login call user =>
      simp only [step, login] at hstep
      split at hstep
      case h_2 => cases hstep
      rename_i hidle
      cases hstep
      refine .login call user _ hidle ?_
      cases user with
      | none => exact .inl rfl
      | some pair => exact .inr ⟨pair.1, pair.2, rfl⟩
  | issue call familyId token =>
      simp only [step, issue] at hstep
      split at hstep
      case h_2 => cases hstep
      rename_i userId role hhandler
      obtain ⟨tokens, htokens, rfl⟩ := Option.map_eq_some_iff.mp hstep
      exact .issue call userId role familyId token tokens hhandler htokens
  | refresh call token =>
      simp only [step, refresh] at hstep
      split at hstep
      case h_2 => cases hstep
      rename_i hidle
      obtain ⟨tokens, htokens, rfl⟩ := Option.map_eq_some_iff.mp hstep
      exact .refresh call token tokens hidle htokens
  | statement inner =>
      simp only [step, statement] at hstep
      split at hstep
      case isFalse => cases hstep
      rename_i hinner
      obtain ⟨tokens, htokens, rfl⟩ := Option.map_eq_some_iff.mp hstep
      exact .statement inner tokens hinner htokens
  | readUser call role =>
      simp only [step, readUser] at hstep
      split at hstep
      case h_2 => cases hstep
      rename_i presented owner token hhandler hanswer
      cases role with
      | none =>
          cases hstep
          exact .readUser call none presented token owner _ hhandler hanswer (.inl rfl)
      | some role =>
          cases hstep
          exact .readUser call (some role) presented token owner _ hhandler hanswer
            (.inr ⟨role, rfl⟩)
  | sign call jti =>
      simp only [step, sign] at hstep
      split at hstep
      case h_2 => cases hstep
      rename_i userId role familyId refreshToken hhandler
      split at hstep
      case isTrue => cases hstep
      rename_i hfresh
      cases hstep
      exact .sign call jti userId role familyId refreshToken hhandler hfresh
  | denyFamily call =>
      simp only [step, denyFamily] at hstep
      split at hstep
      case h_2 => cases hstep
      rename_i presented owner revokedRows hhandler hanswer
      cases hstep
      exact .denyFamily call presented owner revokedRows hhandler hanswer
  | reject call =>
      simp only [step, reject] at hstep
      split at hstep
      · rename_i presented reason owner revokedRows hhandler hanswer
        split at hstep <;> cases hstep
        exact .reject call _ (by rw [hhandler]; rfl) (by rw [hanswer]; rfl) (.inl rfl)
      · rename_i hhandler hanswer
        cases hstep
        exact .reject call _ (by rw [hhandler]; rfl) (by rw [hanswer]; rfl) (.inr rfl)
      · rename_i principal hhandler hanswer
        cases hstep
        exact .reject call _ (by rw [hhandler]; rfl) (by rw [hanswer]; rfl) (.inr rfl)
      · cases hstep
  | logout call token =>
      simp only [step, logout] at hstep
      split at hstep
      case h_2 => cases hstep
      rename_i hidle
      split at hstep
      case isFalse => cases hstep
      rename_i hsigned
      obtain ⟨tokens, htokens, rfl⟩ := Option.map_eq_some_iff.mp hstep
      exact .logout call token tokens hidle hsigned htokens
  | denyAccess call =>
      simp only [step, denyAccess] at hstep
      split at hstep
      case h_2 => cases hstep
      rename_i principal familyId affected hhandler hanswer
      cases hstep
      exact .denyAccess call principal familyId affected hhandler hanswer

/-! ### Tokens of both kinds -/

variable {Hash : Type} [DecidableEq Hash] {hash : Token → Hash} {state after : State Hash}
  {action : Action Hash}

theorem tokensInv_step (hinv : RefreshToken.Inv hash state.tokens)
    (hstep : step hash state action = some after) :
    RefreshToken.Inv hash after.tokens ∧ state.tokens.clock ≤ after.tokens.clock := by
  have hinner : ∀ inner tokens, RefreshToken.step hash state.tokens inner = some tokens →
      RefreshToken.Inv hash tokens ∧ state.tokens.clock ≤ tokens.clock := fun _ _ htokens =>
    ⟨hinv.step htokens, RefreshToken.clock_le_of_step hinv.locks htokens⟩
  cases step_handles hstep with
  | tick elapsed => exact hinner (.tick elapsed) _ rfl
  | issue call userId role familyId token tokens hhandler htokens => exact hinner _ tokens htokens
  | refresh call token tokens hidle htokens => exact hinner _ tokens htokens
  | statement inner tokens hstatement htokens => exact hinner _ tokens htokens
  | logout call token tokens hidle hsigned htokens => exact hinner _ tokens htokens
  | _ => exact ⟨hinv, Nat.le_refl _⟩

/-- The `jti`s of the signed tokens are unique, and no token outlives its TTL. -/
structure SignedInv (state : State Hash) : Prop where
  unique : ∀ token ∈ state.signed, ∀ other ∈ state.signed, token.jti = other.jti → token = other
  bounded : ∀ token ∈ state.signed, seconds token.exp ≤ state.tokens.clock + seconds accessTtlSec

omit [DecidableEq Hash] in
theorem signedInv_init : SignedInv (State.init : State Hash) :=
  ⟨fun _ htoken => (by cases htoken), fun _ htoken => (by cases htoken)⟩

theorem SignedInv.step (hsigned : SignedInv state) (hinv : RefreshToken.Inv hash state.tokens)
    (hstep : step hash state action = some after) : SignedInv after := by
  have hclock := (tokensInv_step hinv hstep).2
  have hsame : after.signed = state.signed → SignedInv after := by
    intro heq
    refine ⟨by rw [heq]; exact hsigned.unique, fun token htoken => ?_⟩
    rw [heq] at htoken
    have := hsigned.bounded token htoken
    omega
  cases step_handles hstep with
  | sign call jti userId role familyId refreshToken hhandler hfresh =>
      have hnew : ∀ token ∈ state.signed, token.jti ≠ jti := by
        rintro token htoken rfl
        exact hfresh (List.mem_map_of_mem htoken)
      refine ⟨?_, fun token htoken => ?_⟩
      · rintro token htoken other hother hjti
        rcases List.mem_cons.mp htoken with rfl | htoken <;>
          rcases List.mem_cons.mp hother with rfl | hother
        · rfl
        · exact absurd hjti.symm (hnew other hother)
        · exact absurd hjti (hnew token htoken)
        · exact hsigned.unique token htoken other hother hjti
      · rcases List.mem_cons.mp htoken with rfl | hold
        · exact seconds_exp_signAccess_le userId role familyId jti
        · exact hsigned.bounded token hold
  | _ => exact hsame rfl

end Marketplace.AuthService
