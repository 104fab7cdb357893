import Marketplace.Auth.AuthService

/-!
# Does detected reuse kill the access tokens of the family?

`deny:fam` lives one access TTL from the moment it is set. It outlives every access token signed
before, and every one signed later in the same second; a refresh that was delayed between its COMMIT
and `buildPair` signs one that the entry does not outlive.
-/

namespace Marketplace.AuthService

open ReadCommitted Transition
open RefreshToken (FamilyId Token sampleToken)

variable {Hash : Type} [DecidableEq Hash] {hash : Token → Hash} {state after : State Hash}
  {action : Action Hash}

/-- Once the family is on the denylist, none of its access tokens passes any more. -/
def ReuseKillsAccess (hash : Token → Hash) : Prop :=
  ∀ state, Reachable (step hash) State.init state → ∀ entry ∈ state.denied,
    entry.2 < state.tokens.clock → ∀ token ∈ state.signed, token.familyId = entry.1 →
      accepted state.denylist state.tokens.clock token = false

/-- No access token is signed that would outlive the entry of its family: the current second began
no later than the entry was set. -/
def SignsInTime (state : State Hash) : Action Hash → Prop
  | .sign call _ =>
      match state.handlers call with
      | .signing _ _ familyId _ => ∀ deadline ∈ state.denylist.family familyId,
          seconds (floorSec state.tokens.clock) + seconds accessTtlSec ≤ deadline
      | _ => True
  | _ => True

instance (state : State Hash) (action : Action Hash) : Decidable (SignsInTime state action) := by
  unfold SignsInTime
  split
  · split <;> infer_instance
  all_goals exact .isTrue trivial

/-- The entry of a family that was denied is there, and outlives the access tokens of the family. -/
structure DenyInv (state : State Hash) : Prop where
  covered : ∀ familyId deadline, state.denylist.family familyId = some deadline →
    ∀ token ∈ state.signed, token.familyId = familyId → seconds token.exp ≤ deadline
  denied : ∀ entry ∈ state.denied, ∃ deadline, state.denylist.family entry.1 = some deadline

omit [DecidableEq Hash] in
theorem denyInv_init : DenyInv (State.init : State Hash) where
  covered _ _ _ _ htoken := by cases htoken
  denied _ hentry := by cases hentry

theorem DenyInv.step (hdeny : DenyInv state) (hsigned : SignedInv state)
    (hok : SignsInTime state action) (hstep : step hash state action = some after) :
    DenyInv after := by
  cases step_handles hstep with
  | sign call jti userId role familyId refreshToken hhandler hfresh =>
      refine ⟨fun family deadline hdeadline token htoken hmember => ?_, hdeny.denied⟩
      rcases List.mem_cons.mp htoken with rfl | hold
      · simp only [SignsInTime, hhandler] at hok
        have heq : familyId = family := hmember
        subst heq
        have hbound := hok deadline hdeadline
        rwa [← seconds_add] at hbound
      · exact hdeny.covered family deadline hdeadline token hold hmember
  | denyFamily call presented owner revokedRows hhandler hanswer =>
      refine ⟨fun family deadline hdeadline token htoken hmember => ?_, fun entry hentry => ?_⟩
      · by_cases heq : family = owner.familyId
        · subst heq
          simp only [Denylist.revokeFamily, Function.update_self, Option.some.injEq] at hdeadline
          rw [← hdeadline]
          exact hsigned.bounded token htoken
        · simp only [Denylist.revokeFamily, Function.update_of_ne heq] at hdeadline
          exact hdeny.covered family deadline hdeadline token htoken hmember
      · by_cases heq : entry.1 = owner.familyId
        · exact ⟨_, by rw [heq]; exact Function.update_self _ _ _⟩
        · rcases List.mem_cons.mp hentry with rfl | hold
          · exact absurd rfl heq
          · obtain ⟨deadline, hdeadline⟩ := hdeny.denied entry hold
            exact ⟨deadline, (Function.update_of_ne heq _ _).trans hdeadline⟩
  | denyAccess call principal familyId affected hhandler hanswer =>
      constructor
      · simp only [revokeAccess_family]
        exact hdeny.covered
      · simp only [revokeAccess_family]
        exact hdeny.denied
  | _ => exact ⟨hdeny.covered, hdeny.denied⟩

/-- Where no access token of a denied family is signed in a later second, none of them passes. -/
theorem reuse_kills_access (hreach : Reach (step hash) SignsInTime State.init state) :
    ∀ entry ∈ state.denied, entry.2 < state.tokens.clock → ∀ token ∈ state.signed,
      token.familyId = entry.1 → accepted state.denylist state.tokens.clock token = false := by
  obtain ⟨-, -, hdeny⟩ := hreach.invariant
    (fun state => RefreshToken.Inv hash state.tokens ∧ SignedInv state ∧ DenyInv state)
    ⟨RefreshToken.inv_init, signedInv_init, denyInv_init⟩
    fun _ _ _ _ hinv hok hstep => ⟨(tokensInv_step hinv.1 hstep).1,
      hinv.2.1.step hinv.1 hstep, hinv.2.2.step hinv.2.1 hok hstep⟩
  intro entry hentry _ token htoken hmember
  obtain ⟨deadline, hdeadline⟩ := hdeny.denied entry hentry
  have hcovered := hdeny.covered entry.1 deadline hdeadline token htoken hmember
  by_contra haccepted
  obtain ⟨hlive, -, hfamily⟩ := accepted_spec (Bool.of_not_eq_false haccepted)
  rw [hmember, hdeadline, Denylist.present, Option.any_some, decide_eq_false_iff_not] at hfamily
  omega

/-- A token is rotated by call 2 and presented again by call 3, which denies the family before call
2 goes on. -/
def reuseWhileRefreshing : List (Action Token) :=
  [.login 1 (some (7, .customer)), .issue 1 0 (sampleToken 'A'), .sign 1 100,
    .refresh 2 (sampleToken 'A'), .statement (.select 2), .statement (.lock 2),
    .statement (.markUsed 2), .statement (.insert 2 (sampleToken 'B')), .statement (.commit 2),
    .refresh 3 (sampleToken 'A'), .statement (.select 3), .statement (.lock 3),
    .statement (.startRevoke 3), .statement (.visit 3 (sampleToken 'A')),
    .statement (.visit 3 (sampleToken 'B')), .statement (.commit 3), .denyFamily 3]

/-- Call 2 signs in the same second. -/
def promptSignature : List (Action Token) :=
  reuseWhileRefreshing ++ [.readUser 2 (some .customer), .sign 2 101, .tick 1000]

theorem reuse_kills_access_promptSignature :
    ∃ state : State Token, Reach (step id) SignsInTime State.init state ∧
      state.denied = [(0, 0)] ∧ state.signed.map AccessToken.jti = [101, 100] ∧
      ∀ token ∈ state.signed, token.familyId = 0 →
        accepted state.denylist state.tokens.clock token = false := by
  obtain ⟨state, hreach, hcheck⟩ : ∃ state : State Token,
      Reach (step id) SignsInTime State.init state ∧
        decide (state.denied = [(0, 0)] ∧ state.signed.map AccessToken.jti = [101, 100] ∧
          0 < state.tokens.clock) = true :=
    exists_reach_of_runWithin promptSignature (by decide +kernel)
  obtain ⟨hdenied, hsigned, hclock⟩ := of_decide_eq_true hcheck
  exact ⟨state, hreach, hdenied, hsigned,
    reuse_kills_access hreach (0, 0) (by simp [hdenied]) hclock⟩

/-- Call 2 signs a second later, and the clock runs until the entry of the family is gone. -/
def lateSignature : List (Action Token) :=
  reuseWhileRefreshing ++ [.tick 1000, .readUser 2 (some .customer), .sign 2 101, .tick 599000]

theorem lateSignature_accepted : ¬ ReuseKillsAccess (id : Token → Token) := by
  obtain ⟨state, hreach, hcheck⟩ : ∃ state : State Token,
      Reachable (step id) State.init state ∧
        decide ((0, 0) ∈ state.denied ∧ 0 < state.tokens.clock ∧ ∃ token ∈ state.signed,
          token.familyId = 0 ∧ accepted state.denylist state.tokens.clock token = true) = true :=
    exists_reach_of_runWithin lateSignature (by decide +kernel)
  obtain ⟨hdenied, hclock, token, htoken, hmember, haccepted⟩ := of_decide_eq_true hcheck
  intro hkills
  rw [hkills state hreach (0, 0) hdenied hclock token htoken hmember] at haccepted
  cases haccepted

end Marketplace.AuthService
