import Marketplace.Auth.Constants
import Marketplace.Auth.RefreshToken

/-!
# Access tokens, the denylist and the two guards

`TokenService`, `AccessDenylist`, `AuthGuard.canActivate` and `OrdersGateway.authenticate`. A token
is the claims it carries: only the service can sign, so the tokens that pass the signature, `iss`
and `aud` checks are the ones `signAccess` made. Deadlines are milliseconds, `iat` and `exp` whole
seconds.
-/

namespace Marketplace

open RefreshToken (FamilyId)

/-- A random UUID. -/
abbrev Jti := Nat

inductive UserRole where
  | customer
  | seller
  | admin
  deriving DecidableEq

structure AccessToken where
  userId : UserId
  role : UserRole
  familyId : FamilyId
  jti : Jti
  iat : Nat
  exp : Nat
  deriving DecidableEq

structure AccessPrincipal where
  userId : UserId
  role : UserRole
  jti : Jti
  familyId : FamilyId
  expiresAt : Nat
  deriving DecidableEq

def AccessToken.principal (token : AccessToken) : AccessPrincipal where
  userId := token.userId
  role := token.role
  jti := token.jti
  familyId := token.familyId
  expiresAt := token.exp

def signAccess (userId : UserId) (role : UserRole) (familyId : FamilyId) (jti : Jti) (now : Nat) :
    AccessToken where
  userId := userId
  role := role
  familyId := familyId
  jti := jti
  iat := floorSec now
  exp := floorSec now + accessTtlSec

/-- `jwt.verify` rejects from the second `exp` on; the rest are the claims checks of the service. -/
def verifyAccess (now : Nat) (token : AccessToken) : Option AccessPrincipal :=
  if token.exp ≤ floorSec now ∨ token.userId ≤ 0 then none else some token.principal

/-- The Redis keys `deny:jti:` and `deny:fam:`, each with the time at which it is gone. -/
structure Denylist where
  jti : Jti → Option Nat
  family : FamilyId → Option Nat

namespace Denylist

def empty : Denylist := ⟨fun _ => none, fun _ => none⟩

/-- A key with a deadline is there until the deadline is reached. -/
def present (deadline : Option Nat) (now : Nat) : Bool := deadline.any (now < ·)

/-- `SET deny:jti:<jti> 1 EX remainingSec`, unless nothing remains. `remainingSec` is
`Math.ceil(expiresAtSec - nowMs / 1000)`. -/
def revokeAccess (denylist : Denylist) (jti : Jti) (expiresAtSec nowMs : Nat) : Denylist × Bool :=
  let remainingSec := (seconds expiresAtSec - nowMs + 999) / 1000
  if remainingSec = 0 then (denylist, false)
  else
    ({ denylist with
        jti := Function.update denylist.jti jti (some (nowMs + seconds remainingSec)) }, true)

/-- `SET deny:fam:<familyId> 1 EX ACCESS_TTL_SEC`. -/
def revokeFamily (denylist : Denylist) (familyId : FamilyId) (nowMs : Nat) : Denylist :=
  { denylist with
    family := Function.update denylist.family familyId (some (nowMs + seconds accessTtlSec)) }

def isDenied (denylist : Denylist) (jti : Jti) (familyId : FamilyId) (now : Nat) : Bool :=
  present (denylist.jti jti) now || present (denylist.family familyId) now

end Denylist

/-- What both guards do, with the error each of them throws at the four places. `denylist` is `none`
when Redis does not answer. -/
def checkAccess {ε : Type} (missing invalid unavailable denied : ε) (denylist : Option Denylist)
    (now : Nat) (bearer : Option AccessToken) : Except ε AccessPrincipal :=
  match bearer with
  | none => .error missing
  | some token =>
      match verifyAccess now token with
      | none => .error invalid
      | some principal =>
          match denylist with
          | none => .error unavailable
          | some denylist =>
              if denylist.isDenied principal.jti principal.familyId now then .error denied
              else .ok principal

/-- `AuthGuard.canActivate` on a route that is not public. -/
def canActivate : Option Denylist → Nat → Option AccessToken → Except HttpError AccessPrincipal :=
  checkAccess
    ⟨401, "Потрібен заголовок Authorization: Bearer <access-токен>"⟩
    ⟨401, "Access-токен недійсний або прострочений"⟩
    ⟨503, "Не вдалося перевірити відкликання токена, спробуйте пізніше"⟩
    ⟨401, "Access-токен відкликано"⟩

/-- `OrdersGateway.authenticate`: the socket handshake. -/
def authenticate : Option Denylist → Nat → Option AccessToken → Except String AccessPrincipal :=
  checkAccess "unauthorized" "unauthorized" "service_unavailable" "unauthorized"

/-- The token is verified and not denied, which is what both guards ask. -/
def accepted (denylist : Denylist) (now : Nat) (token : AccessToken) : Bool :=
  (verifyAccess now token).isSome && !denylist.isDenied token.jti token.familyId now

/-- One of the two guards lets the token pass. -/
def letsPass (denylist : Denylist) (now : Nat) (token : AccessToken) : Prop :=
  (∃ principal, canActivate (some denylist) now (some token) = .ok principal) ∨
    ∃ principal, authenticate (some denylist) now (some token) = .ok principal

variable {denylist : Denylist} {now : Nat} {token : AccessToken}

theorem verifyAccess_eq_some {principal : AccessPrincipal}
    (hverify : verifyAccess now token = some principal) :
    now < seconds token.exp ∧ principal = token.principal := by
  unfold verifyAccess at hverify
  split at hverify
  · cases hverify
  · rename_i hvalid
    rw [not_or, Nat.not_le, floorSec_lt_iff] at hvalid
    cases hverify
    exact ⟨hvalid.1, rfl⟩

theorem accepted_iff_checkAccess {ε : Type} {missing invalid unavailable denied : ε} :
    accepted denylist now token = true ↔ ∃ principal,
      checkAccess missing invalid unavailable denied (some denylist) now (some token) =
        .ok principal := by
  unfold accepted checkAccess
  dsimp only
  cases hverify : verifyAccess now token with
  | none => simp
  | some principal =>
      obtain ⟨-, rfl⟩ := verifyAccess_eq_some hverify
      by_cases hdenied : denylist.isDenied token.jti token.familyId now = true
      · simp [AccessToken.principal, hdenied]
      · simp [AccessToken.principal, hdenied]

/-- `AuthGuard` and the socket handshake let the same tokens pass. -/
theorem letsPass_iff : letsPass denylist now token ↔ accepted denylist now token = true := by
  unfold letsPass canActivate authenticate
  rw [← accepted_iff_checkAccess, ← accepted_iff_checkAccess, or_self]

/-- What an accepted token tells: it has not expired and neither of its keys is there. -/
theorem accepted_spec (haccepted : accepted denylist now token = true) :
    now < seconds token.exp ∧ Denylist.present (denylist.jti token.jti) now = false ∧
      Denylist.present (denylist.family token.familyId) now = false := by
  simp only [accepted, Bool.and_eq_true, Bool.not_eq_true', Denylist.isDenied, Bool.or_eq_false_iff]
    at haccepted
  obtain ⟨principal, hverify⟩ := Option.isSome_iff_exists.mp haccepted.1
  exact ⟨(verifyAccess_eq_some hverify).1, haccepted.2⟩

theorem seconds_exp_signAccess_le (userId : UserId) (role : UserRole) (familyId : FamilyId)
    (jti : Jti) :
    seconds (signAccess userId role familyId jti now).exp ≤ now + seconds accessTtlSec := by
  calc
    seconds (floorSec now + accessTtlSec) = seconds (floorSec now) + seconds accessTtlSec :=
      seconds_add _ _
    _ ≤ now + seconds accessTtlSec := Nat.add_le_add_right (seconds_floorSec_le now) _

/-- After `revokeAccess` the token has expired or is on the list until it expires. -/
theorem revokeAccess_spec (denylist : Denylist) (jti : Jti) (expiresAtSec now : Nat) :
    seconds expiresAtSec ≤ now ∨
      ∃ deadline, (denylist.revokeAccess jti expiresAtSec now).1.jti jti = some deadline ∧
        seconds expiresAtSec ≤ deadline := by
  rcases Nat.lt_or_ge now (seconds expiresAtSec) with hlive | hexpired
  · have hremains : (seconds expiresAtSec - now + 999) / 1000 ≠ 0 := by
      omega
    refine .inr ⟨now + seconds ((seconds expiresAtSec - now + 999) / 1000), ?_, ?_⟩
    · simp [Denylist.revokeAccess, hremains]
    · simp only [seconds] at *
      omega
  · exact .inl hexpired

theorem revokeAccess_of_ne {jti other : Jti} (expiresAtSec : Nat) (hne : other ≠ jti) :
    (denylist.revokeAccess jti expiresAtSec now).1.jti other = denylist.jti other := by
  unfold Denylist.revokeAccess
  dsimp only
  split
  · rfl
  · exact Function.update_of_ne hne _ _

theorem revokeAccess_family (jti : Jti) (expiresAtSec : Nat) :
    (denylist.revokeAccess jti expiresAtSec now).1.family = denylist.family := by
  unfold Denylist.revokeAccess
  dsimp only
  split <;> rfl

end Marketplace
