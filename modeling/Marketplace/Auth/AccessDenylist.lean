import Mathlib.Data.List.Induction
import Mathlib.Data.Rat.Floor
import Mathlib.Tactic.Linarith
import Marketplace.Auth.AccessToken

/-!
# How long the entries of the denylist live

The writes of `AccessDenylist` in the order in which Redis takes them, on one clock with Node. Three
roundings meet: the entry lives for whole seconds from its write, the remainder is rounded up, and a
token expires with the second that `exp` names.
-/

namespace Marketplace

open RefreshToken (FamilyId)

namespace Denylist

inductive Write where
  | revokeAccess (jti : Jti) (expiresAtSec nowMs : Nat)
  | revokeFamily (familyId : FamilyId) (nowMs : Nat)
  deriving DecidableEq

def Write.time : Write → Nat
  | .revokeAccess _ _ nowMs => nowMs
  | .revokeFamily _ nowMs => nowMs

def write (denylist : Denylist) : Write → Denylist
  | .revokeAccess jti expiresAtSec nowMs => (denylist.revokeAccess jti expiresAtSec nowMs).1
  | .revokeFamily familyId nowMs => denylist.revokeFamily familyId nowMs

def after (writes : List Write) : Denylist := writes.foldl write empty

/-- One clock: no write is earlier than the one before it. -/
def InOrder (writes : List Write) : Prop := writes.Pairwise fun left right => left.time ≤ right.time

/-- The writes so far and the entries they have left. -/
structure Accounts (writes : List Write) (denylist : Denylist) : Prop where
  /-- An entry ends in the second after the `exp` of a call that wrote it. -/
  jti_of_entry : ∀ jti deadline, denylist.jti jti = some deadline → ∃ expiresAtSec nowMs,
    .revokeAccess jti expiresAtSec nowMs ∈ writes ∧ seconds expiresAtSec ≤ deadline ∧
      deadline < seconds (expiresAtSec + 1)
  entry_of_jti : ∀ jti expiresAtSec nowMs, .revokeAccess jti expiresAtSec nowMs ∈ writes →
    nowMs < seconds expiresAtSec → (denylist.jti jti).isSome
  entry_of_family : ∀ familyId nowMs, .revokeFamily familyId nowMs ∈ writes →
    ∃ deadline, denylist.family familyId = some deadline ∧ nowMs + seconds accessTtlSec ≤ deadline

variable {denylist : Denylist} {writes : List Write} {latest : Write}

/-- `Math.ceil(expiresAtSec - nowMs / 1000)` with a quotient that has been rounded: it is exact on
whole seconds, and elsewhere too close to the exact one to reach the next millisecond. -/
theorem ceil_remaining (expiresAtSec nowMs : Nat) {quotient : ℚ}
    (hnear : |quotient - nowMs / 1000| < 1 / 1000)
    (hexact : 1000 ∣ nowMs → quotient = nowMs / 1000) :
    ⌈(expiresAtSec : ℚ) - quotient⌉.toNat = (seconds expiresAtSec - nowMs + 999) / 1000 := by
  have hsplit : (nowMs : ℚ) = 1000 * floorSec nowMs + (nowMs % 1000 : Nat) := by
    exact_mod_cast (Nat.div_add_mod nowMs 1000).symm
  have hrest : ((nowMs % 1000 : Nat) : ℚ) ≤ 999 := by
    exact_mod_cast Nat.le_of_lt_succ (Nat.mod_lt nowMs (by decide))
  obtain ⟨hlower, hupper⟩ := abs_lt.mp hnear
  have hfloor : (floorSec nowMs : ℚ) ≤ quotient := by
    rcases Nat.eq_zero_or_pos (nowMs % 1000) with hwhole | hpart
    · rw [hexact (Nat.dvd_of_mod_eq_zero hwhole)]
      rw [hwhole] at hsplit
      push_cast at hsplit
      linarith
    · have hpart : (1 : ℚ) ≤ (nowMs % 1000 : Nat) := by
        exact_mod_cast hpart
      linarith
  have hceil : ⌈(expiresAtSec : ℚ) - quotient⌉ = expiresAtSec - floorSec nowMs := by
    rw [Int.ceil_eq_iff]
    push_cast
    constructor <;> linarith
  rw [hceil]
  unfold seconds floorSec
  omega

theorem after_append (latest : Write) :
    after (writes ++ [latest]) = (after writes).write latest := by
  simp [after]

theorem Accounts.empty : Accounts [] empty where
  jti_of_entry := by simp [Denylist.empty]
  entry_of_jti := by simp
  entry_of_family := by simp

theorem revokeAccess_eq_some {jti other : Jti} {expiresAtSec nowMs deadline : Nat}
    (hentry : (denylist.revokeAccess jti expiresAtSec nowMs).1.jti other = some deadline) :
    denylist.jti other = some deadline ∨
      other = jti ∧ seconds expiresAtSec ≤ deadline ∧ deadline < seconds (expiresAtSec + 1) := by
  by_cases hjti : other = jti
  · unfold revokeAccess at hentry
    dsimp only at hentry
    split at hentry
    · exact .inl hentry
    · rename_i hremains
      simp only [hjti, Function.update_self, Option.some_inj] at hentry
      refine .inr ⟨hjti, ?_⟩
      simp only [seconds] at *
      omega
  · rw [revokeAccess_of_ne expiresAtSec hjti] at hentry
    exact .inl hentry

theorem isSome_revokeAccess {jti : Jti} {expiresAtSec nowMs : Nat}
    (hlive : nowMs < seconds expiresAtSec) :
    ((denylist.revokeAccess jti expiresAtSec nowMs).1.jti jti).isSome := by
  rcases revokeAccess_spec denylist jti expiresAtSec nowMs with hexpired | ⟨deadline, hentry, -⟩
  · omega
  · simp [hentry]

theorem isSome_revokeAccess_of_isSome {jti other : Jti} {expiresAtSec nowMs : Nat}
    (hentry : (denylist.jti other).isSome) :
    ((denylist.revokeAccess jti expiresAtSec nowMs).1.jti other).isSome := by
  unfold revokeAccess
  dsimp only
  split
  · exact hentry
  · by_cases hjti : other = jti <;> simp [hjti, Function.update_of_ne, hentry]

theorem Accounts.write (haccounts : Accounts writes denylist)
    (hlatest : ∀ earlier ∈ writes, earlier.time ≤ latest.time) :
    Accounts (writes ++ [latest]) (denylist.write latest) := by
  cases latest with
  | revokeAccess jti expiresAtSec nowMs =>
      refine ⟨?_, ?_, ?_⟩
      · intro other deadline hentry
        rcases revokeAccess_eq_some hentry with hold | ⟨rfl, hbounds⟩
        · obtain ⟨expiresAtSec', nowMs', hmem, hbounds⟩ := haccounts.jti_of_entry _ _ hold
          exact ⟨expiresAtSec', nowMs', by simp [hmem], hbounds⟩
        · exact ⟨expiresAtSec, nowMs, by simp, hbounds⟩
      · intro other expiresAtSec' nowMs' hmem hlive
        simp only [List.mem_append, List.mem_singleton, Write.revokeAccess.injEq] at hmem
        rcases hmem with hmem | ⟨rfl, rfl, rfl⟩
        · exact isSome_revokeAccess_of_isSome (haccounts.entry_of_jti _ _ _ hmem hlive)
        · exact isSome_revokeAccess hlive
      · intro familyId nowMs' hmem
        have hold : .revokeFamily familyId nowMs' ∈ writes := by simpa using hmem
        simpa [Denylist.write, revokeAccess_family] using haccounts.entry_of_family _ _ hold
  | revokeFamily familyId nowMs =>
      refine ⟨?_, ?_, ?_⟩
      · intro jti deadline hentry
        obtain ⟨expiresAtSec, nowMs', hmem, hbounds⟩ := haccounts.jti_of_entry _ _ hentry
        exact ⟨expiresAtSec, nowMs', by simp [hmem], hbounds⟩
      · intro jti expiresAtSec nowMs' hmem hlive
        exact haccounts.entry_of_jti _ _ nowMs' (by simpa using hmem) hlive
      · intro other nowMs' hmem
        simp only [Denylist.write, revokeFamily]
        by_cases hfamily : other = familyId
        · subst hfamily
          refine ⟨_, Function.update_self .., ?_⟩
          have hle : nowMs' ≤ nowMs := by
            rcases List.mem_append.mp hmem with hmem | hmem
            · exact hlatest _ hmem
            · simp only [List.mem_singleton, Write.revokeFamily.injEq] at hmem
              omega
          omega
        · rw [Function.update_of_ne hfamily]
          exact haccounts.entry_of_family _ _ (by simpa [hfamily] using hmem)

theorem accounts_after (horder : InOrder writes) : Accounts writes (after writes) := by
  induction writes using List.reverseRecOn with
  | nil => exact Accounts.empty
  | append_singleton writes latest ih =>
      rw [InOrder, List.pairwise_append] at horder
      rw [after_append]
      exact (ih horder.1).write fun earlier hearlier => horder.2.2 earlier hearlier latest (by simp)

/-- The entry of a call for a token that has not expired at `now` is there as long as the token is
accepted. -/
theorem Accounts.present_jti (haccounts : Accounts writes denylist) {token : AccessToken}
    {now : Nat} (htoken : ∀ expiresAtSec nowMs,
      .revokeAccess token.jti expiresAtSec nowMs ∈ writes →
      expiresAtSec = token.exp)
    (hmem : .revokeAccess token.jti token.exp now ∈ writes) {time : Nat} (hle : now ≤ time)
    (hlive : time < seconds token.exp) : present (denylist.jti token.jti) time = true := by
  obtain ⟨deadline, hentry⟩ := Option.isSome_iff_exists.mp
    (haccounts.entry_of_jti _ _ _ hmem (Nat.lt_of_le_of_lt hle hlive))
  obtain ⟨expiresAtSec, nowMs, hwrite, hlower, -⟩ := haccounts.jti_of_entry _ _ hentry
  rw [htoken _ _ hwrite] at hlower
  simp only [present, hentry, Option.any_some, decide_eq_true_eq]
  omega

theorem Accounts.present_family (haccounts : Accounts writes denylist) {familyId : FamilyId}
    {now : Nat} (hmem : .revokeFamily familyId now ∈ writes) {time : Nat}
    (hlive : time < now + seconds accessTtlSec) :
    present (denylist.family familyId) time = true := by
  obtain ⟨deadline, hentry, hlower⟩ := haccounts.entry_of_family _ _ hmem
  simp only [present, hentry, Option.any_some, decide_eq_true_eq]
  omega

/-- An entry that can still be read belongs to a token that expired less than a second ago, or has
not expired. -/
theorem Accounts.time_lt (haccounts : Accounts writes denylist) {jti : Jti} {time : Nat}
    (hpresent : present (denylist.jti jti) time = true) : ∃ expiresAtSec nowMs,
    .revokeAccess jti expiresAtSec nowMs ∈ writes ∧ time < seconds (expiresAtSec + 1) := by
  cases hentry : denylist.jti jti with
  | none => simp [present, hentry] at hpresent
  | some deadline =>
      obtain ⟨expiresAtSec, nowMs, hmem, -, hupper⟩ := haccounts.jti_of_entry _ _ hentry
      have hlt : time < deadline := by
        simpa [present, hentry] using hpresent
      exact ⟨expiresAtSec, nowMs, hmem, hlt.trans hupper⟩

theorem revokeAccess_skips {jti : Jti} {expiresAtSec nowMs : Nat}
    (hskipped : (denylist.revokeAccess jti expiresAtSec nowMs).2 = false) :
    seconds expiresAtSec ≤ nowMs := by
  unfold revokeAccess at hskipped
  dsimp only at hskipped
  split at hskipped
  · omega
  · cases hskipped

/-- The entries outlive exactly the tokens they revoke. `writes` are the writes that Redis has
taken, repeated calls among them; the jti of a token is its own. -/
theorem denied_while_accepted (horder : InOrder writes) (token : AccessToken)
    (htoken : ∀ expiresAtSec nowMs, .revokeAccess token.jti expiresAtSec nowMs ∈ writes →
      expiresAtSec = token.exp) :
    (∀ now time, .revokeAccess token.jti token.exp now ∈ writes → now ≤ time →
      (verifyAccess time token).isSome →
        (after writes).isDenied token.jti token.familyId time = true) ∧
    (∀ denylist now time, (revokeAccess denylist token.jti token.exp now).2 = false → now ≤ time →
      verifyAccess time token = none) ∧
    (∀ jti time, present ((after writes).jti jti) time = true → ∃ expiresAtSec nowMs,
      .revokeAccess jti expiresAtSec nowMs ∈ writes ∧ time < seconds (expiresAtSec + 1)) ∧
    ∀ now issued time, .revokeFamily token.familyId now ∈ writes → issued ≤ now → now ≤ time →
      token = signAccess token.userId token.role token.familyId token.jti issued →
        (verifyAccess time token).isSome →
          (after writes).isDenied token.jti token.familyId time = true := by
  have haccounts := accounts_after horder
  have hexpires : ∀ {time}, (verifyAccess time token).isSome → time < seconds token.exp := by
    intro time haccepts
    obtain ⟨principal, hverify⟩ := Option.isSome_iff_exists.mp haccepts
    exact (verifyAccess_eq_some hverify).1
  refine ⟨?_, ?_, ?_, ?_⟩
  · intro now time hmem hle haccepts
    rw [isDenied, haccounts.present_jti htoken hmem hle (hexpires haccepts), Bool.true_or]
  · intro denylist now time hskipped hle
    by_contra haccepts
    have hlive := hexpires (Option.isSome_iff_ne_none.mpr haccepts)
    have hexpired := revokeAccess_skips hskipped
    omega
  · intro jti time hpresent
    exact haccounts.time_lt hpresent
  · intro now issued time hmem hissued hle hsigned haccepts
    have hexp : seconds token.exp ≤ issued + seconds accessTtlSec := by
      rw [hsigned]
      exact seconds_exp_signAccess_le _ _ _ _
    have hlive := hexpires haccepts
    rw [isDenied, haccounts.present_family hmem (by omega), Bool.or_true]

/-- A token of the first second, revoked twice within its last second and once with its family. -/
theorem denied_while_accepted_twice :
    (after [.revokeFamily 3 100, .revokeAccess 7 600 599250,
      .revokeAccess 7 600 599750]).isDenied 7 3
        599999 = true ∧
      verifyAccess 599999 (signAccess 1 .customer 3 7 40) =
        some (signAccess 1 .customer 3 7 40).principal := by
  have horder : InOrder
      [.revokeFamily 3 100, .revokeAccess 7 600 599250, .revokeAccess 7 600 599750] := by
    simp [InOrder, Write.time]
  refine ⟨?_, by decide⟩
  refine (denied_while_accepted horder (signAccess 1 .customer 3 7 40) ?_).1 599250 599999
    (by decide) (by decide) (by decide)
  simp only [List.mem_cons, Write.revokeAccess.injEq, List.not_mem_nil]
  rintro expiresAtSec nowMs (h | ⟨-, rfl, -⟩ | ⟨-, rfl, -⟩ | h)
  · cases h
  · rfl
  · rfl
  · cases h

end Denylist

end Marketplace
