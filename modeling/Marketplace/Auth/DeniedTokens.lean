import Marketplace.Auth.AuthService

/-!
# What stays on the denylist

Of every run, with any number of logins, refreshes and logouts at work at a time: a logout that has
returned keeps its access token on the denylist until the token expires, and a reuse that was
answered keeps its family there for one access TTL.
-/

namespace Marketplace.AuthService

open ReadCommitted Transition
open RefreshToken (FamilyId Token)

variable {Hash : Type} [DecidableEq Hash] {hash : Token → Hash} {state after : State Hash}
  {action : Action Hash}

theorem signed_step (hstep : step hash state action = some after) {token : AccessToken}
    (htoken : token ∈ state.signed) : token ∈ after.signed := by
  cases step_handles hstep with
  | sign call jti userId role familyId refreshToken hhandler hfresh =>
      exact List.mem_cons_of_mem _ htoken
  | _ => exact htoken

theorem logouts_step (hstep : step hash state action = some after) {entry : AccessPrincipal × Nat}
    (hentry : entry ∈ state.logouts) : entry ∈ after.logouts := by
  cases step_handles hstep with
  | denyAccess call principal familyId affected hhandler hanswer =>
      exact List.mem_cons_of_mem _ hentry
  | _ => exact hentry

theorem denied_step (hstep : step hash state action = some after) {entry : FamilyId × Nat}
    (hentry : entry ∈ state.denied) : entry ∈ after.denied := by
  cases step_handles hstep with
  | denyFamily call presented owner revokedRows hhandler hanswer =>
      exact List.mem_cons_of_mem _ hentry
  | _ => exact hentry

/-- The token has expired, or its `jti` is on the list at least until it does. -/
def Covered (state : State Hash) (principal : AccessPrincipal) : Prop :=
  seconds principal.expiresAt ≤ state.tokens.clock ∨
    ∃ deadline, state.denylist.jti principal.jti = some deadline ∧
      seconds principal.expiresAt ≤ deadline

def FamilyCovered (state : State Hash) (familyId : FamilyId) (time : Nat) : Prop :=
  ∃ deadline, state.denylist.family familyId = some deadline ∧
    time + seconds accessTtlSec ≤ deadline

structure DenylistInv (hash : Token → Hash) (state : State Hash) : Prop where
  tokens : RefreshToken.Inv hash state.tokens
  signed : SignedInv state
  /-- A logout is at work for a token that was signed. -/
  leaving : ∀ call principal, state.handlers call = .loggingOut principal →
    ∃ token ∈ state.signed, principal = token.principal
  logouts : ∀ entry ∈ state.logouts,
    (∃ token ∈ state.signed, entry.1 = token.principal) ∧ Covered state entry.1
  denied : ∀ entry ∈ state.denied,
    entry.2 ≤ state.tokens.clock ∧ FamilyCovered state entry.1 entry.2

omit [DecidableEq Hash] in
theorem denylistInv_init : DenylistInv hash (State.init : State Hash) where
  tokens := RefreshToken.inv_init
  signed := signedInv_init
  leaving _ _ hhandler := by cases hhandler
  logouts _ hentry := absurd hentry List.not_mem_nil
  denied _ hentry := absurd hentry List.not_mem_nil

omit [DecidableEq Hash] in
theorem Covered.mono {principal : AccessPrincipal} (hcovered : Covered state principal)
    (hclock : state.tokens.clock ≤ after.tokens.clock)
    (hjti : after.denylist.jti = state.denylist.jti) : Covered after principal := by
  unfold Covered at *
  rw [hjti]
  exact hcovered.imp_left fun hexpired => Nat.le_trans hexpired hclock

/-- A logout that returns writes its own key, and whoever logs out with the same token writes it
again. -/
theorem covered_denyAccess (hinv : DenylistInv hash state) {call : Call}
    {principal other : AccessPrincipal} {familyId : FamilyId} {affected : Nat}
    (hhandler : state.handlers call = .loggingOut principal)
    (hanswer : state.tokens.calls call = .revoked familyId affected)
    (hstep : step hash state (.denyAccess call) = some after)
    (hissued : ∃ token ∈ state.signed, other = token.principal)
    (hcovered : other.jti ≠ principal.jti → Covered state other) : Covered after other := by
  simp only [step, denyAccess, hhandler, hanswer] at hstep
  cases hstep
  by_cases hjti : other.jti = principal.jti
  · obtain ⟨token, htoken, rfl⟩ := hissued
    obtain ⟨token', htoken', rfl⟩ := hinv.leaving call principal hhandler
    obtain rfl := hinv.signed.unique token htoken token' htoken' hjti
    exact revokeAccess_spec _ _ _ _
  · rcases hcovered hjti with hexpired | ⟨deadline, hdeadline, hlasts⟩
    · exact .inl hexpired
    · exact .inr ⟨deadline, (revokeAccess_of_ne _ hjti).trans hdeadline, hlasts⟩

theorem leaving_step (hinv : DenylistInv hash state) (hstep : step hash state action = some after)
    {call : Call} {principal : AccessPrincipal}
    (hleaving : after.handlers call = .loggingOut principal) :
    ∃ token ∈ after.signed, principal = token.principal := by
  have hkept : state.handlers call = .loggingOut principal →
      ∃ token ∈ after.signed, principal = token.principal := by
    intro hhandler
    obtain ⟨token, htoken, hprincipal⟩ := hinv.leaving call principal hhandler
    exact ⟨token, signed_step hstep htoken, hprincipal⟩
  have hgoto : ∀ {mover : Call} {next : Handler},
      after.handlers = Function.update state.handlers mover next →
      (next = .loggingOut principal → ∃ token ∈ after.signed, principal = token.principal) →
      ∃ token ∈ after.signed, principal = token.principal := by
    intro mover next hhandlers hnext
    rw [hhandlers] at hleaving
    by_cases heq : call = mover
    · rw [heq, Function.update_self] at hleaving
      exact hnext hleaving
    · rw [Function.update_of_ne heq] at hleaving
      exact hkept hleaving
  cases step_handles hstep with
  | tick elapsed => exact hkept hleaving
  | statement inner tokens hinner htokens => exact hkept hleaving
  | logout mover token tokens hidle hsigned htokens =>
      refine hgoto rfl fun heq => ⟨token, hsigned, ?_⟩
      cases heq
      rfl
  | login mover user next hidle hnext =>
      refine hgoto rfl fun heq => ?_
      rcases hnext with rfl | ⟨userId, role, rfl⟩ <;> cases heq
  | readUser mover role presented token owner next hhandler hanswer hnext =>
      refine hgoto rfl fun heq => ?_
      rcases hnext with rfl | ⟨role, rfl⟩ <;> cases heq
  | reject mover next hactive hanswer hnext =>
      refine hgoto rfl fun heq => ?_
      rcases hnext with rfl | rfl <;> cases heq
  | issue mover userId role familyId token tokens hhandler htokens => exact hgoto rfl (by simp)
  | refresh mover token tokens hidle htokens => exact hgoto rfl (by simp)
  | sign mover jti userId role familyId refreshToken hhandler hfresh => exact hgoto rfl (by simp)
  | denyFamily mover presented owner revokedRows hhandler hanswer => exact hgoto rfl (by simp)
  | denyAccess mover other familyId affected hhandler hanswer => exact hgoto rfl (by simp)

theorem DenylistInv.step (hinv : DenylistInv hash state)
    (hstep : AuthService.step hash state action = some after) : DenylistInv hash after := by
  obtain ⟨htokens, hclock⟩ := tokensInv_step hinv.tokens hstep
  refine ⟨htokens, hinv.signed.step hinv.tokens hstep, fun _ _ => leaving_step hinv hstep, ?_, ?_⟩
  · intro entry hentry
    have hold : entry ∈ state.logouts → after.denylist.jti = state.denylist.jti →
        (∃ token ∈ after.signed, entry.1 = token.principal) ∧ Covered after entry.1 := by
      intro hold hjti
      obtain ⟨⟨token, htoken, hprincipal⟩, hcovered⟩ := hinv.logouts entry hold
      exact ⟨⟨token, signed_step hstep htoken, hprincipal⟩, hcovered.mono hclock hjti⟩
    cases step_handles hstep with
    | denyAccess call principal familyId affected hhandler hanswer =>
        have hissued : ∃ token ∈ state.signed, entry.1 = token.principal := by
          rcases List.mem_cons.mp hentry with rfl | hentry
          · exact hinv.leaving call principal hhandler
          · exact (hinv.logouts entry hentry).1
        refine ⟨hissued, covered_denyAccess hinv hhandler hanswer hstep hissued fun hne => ?_⟩
        rcases List.mem_cons.mp hentry with rfl | hentry
        · exact absurd rfl hne
        · exact (hinv.logouts entry hentry).2
    | _ => exact hold hentry rfl
  · intro entry hentry
    have hold : entry ∈ state.denied → after.denylist.family = state.denylist.family →
        entry.2 ≤ after.tokens.clock ∧ FamilyCovered after entry.1 entry.2 := by
      intro hold hfamily
      obtain ⟨hpassed, deadline, hdeadline, hlasts⟩ := hinv.denied entry hold
      exact ⟨Nat.le_trans hpassed hclock, deadline, by rw [hfamily, hdeadline], hlasts⟩
    cases step_handles hstep with
    | denyFamily call presented owner revokedRows hhandler hanswer =>
        rcases List.mem_cons.mp hentry with rfl | hentry
        · exact ⟨Nat.le_refl _, _, Function.update_self _ _ _, Nat.le_refl _⟩
        · obtain ⟨hpassed, deadline, hdeadline, hlasts⟩ := hinv.denied entry hentry
          refine ⟨hpassed, ?_⟩
          by_cases heq : entry.1 = owner.familyId
          · exact ⟨_, by rw [heq]; exact Function.update_self _ _ _,
              Nat.add_le_add_right hpassed _⟩
          · exact ⟨deadline, by rw [← hdeadline]; exact Function.update_of_ne heq _ _, hlasts⟩
    | denyAccess call principal familyId affected hhandler hanswer =>
        exact hold hentry (revokeAccess_family _ _)
    | _ => exact hold hentry rfl

omit [DecidableEq Hash] in
/-- Whoever is not denied with a token that was logged out holds one that has expired. -/
theorem expired_of_not_denied (hinv : DenylistInv hash state) {entry : AccessPrincipal × Nat}
    (hentry : entry ∈ state.logouts) {token : AccessToken} (htoken : token ∈ state.signed)
    (hjti : token.jti = entry.1.jti)
    (hallowed : state.denylist.isDenied token.jti token.familyId state.tokens.clock = false) :
    seconds token.exp ≤ state.tokens.clock := by
  obtain ⟨⟨issued, hissued, hprincipal⟩, hcovered⟩ := hinv.logouts entry hentry
  rw [hprincipal] at hjti hcovered
  obtain rfl := hinv.signed.unique token htoken issued hissued hjti
  rcases hcovered with hexpired | ⟨deadline, hdeadline, hlasts⟩
  · exact hexpired
  · rw [Denylist.isDenied, Bool.or_eq_false_iff] at hallowed
    have hpresent := hallowed.1
    rw [show token.jti = token.principal.jti from rfl, hdeadline, Denylist.present, Option.any_some,
      decide_eq_false_iff_not, Nat.not_lt] at hpresent
    exact Nat.le_trans hlasts hpresent

omit [DecidableEq Hash] in
theorem ttl_of_not_denied (hinv : DenylistInv hash state) {entry : FamilyId × Nat}
    (hentry : entry ∈ state.denied) {jti : Jti}
    (hallowed : state.denylist.isDenied jti entry.1 state.tokens.clock = false) :
    entry.2 + seconds accessTtlSec ≤ state.tokens.clock := by
  obtain ⟨-, deadline, hdeadline, hlasts⟩ := hinv.denied entry hentry
  rw [Denylist.isDenied, Bool.or_eq_false_iff] at hallowed
  have hpresent := hallowed.2
  rw [hdeadline, Denylist.present, Option.any_some, decide_eq_false_iff_not, Nat.not_lt] at hpresent
  exact Nat.le_trans hlasts hpresent

end Marketplace.AuthService
