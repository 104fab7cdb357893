import Marketplace.Auth.LoginBound
import Marketplace.Lib.Lockstep

/-!
# Whether an email has an account

Two databases that differ in some accounts only. As long as no password that is tried for them is
right, the same requests get the same answers, and the same of them cost a run of `argon2.verify`:
for an email that has no account the password is checked against the dummy hash.
-/

namespace Marketplace.Login

open Ratelimit (LimitResult)
open Lockstep Transition

/-- No account of its own has this password. -/
def Libraries.Wrong (lib : Libraries) (user : Option Account) (password : Text) : Prop :=
  ∀ account hash, user = some account → account.passwordHash = some hash → hash ≠ [] →
    lib.argon2Verify hash password ≠ some true

/-- A hash that `argon2.verify` reads, whatever password it is given. -/
def Libraries.Reads (lib : Libraries) (equalizer : Option Text) : Prop :=
  ∃ hash, equalizer = some hash ∧ ∀ password, lib.argon2Verify hash password ≠ none

/-- What a run does to the accounts that are to stay unknown: it changes none of them and tries no
password of theirs. `argon2.hash` has made a hash of the dummy password. -/
def Harmless (lib : Libraries) (secret : Text → Prop) (left right : Text → Option Account) :
    Action → Prop
  | .setUser email _ => ¬ secret email
  | .consume _ _ email password _ _ _ =>
      secret email → lib.Wrong (left email) password ∧ lib.Wrong (right email) password
  | .verify _ equalizer => lib.Reads equalizer
  | .unreachable _ | .find _ | .findFails _ => True

variable {lib : Libraries} {secret : Text → Prop} {users users' : Text → Option Account}
  {left right : State} {action : Action}

/-- Two requests at the same point: where an account is looked at, it may be another one. -/
inductive PhaseLike (lib : Libraries) (secret : Text → Prop)
    (users users' : Text → Option Account) :
    Phase → Phase → Prop
  | finding (attempt : Attempt) (hwrong : secret attempt.email →
      lib.Wrong (users attempt.email) attempt.password ∧
        lib.Wrong (users' attempt.email) attempt.password) :
      PhaseLike lib secret users users' (.finding attempt) (.finding attempt)
  | same (phase : Phase) (hphase : ∀ attempt, phase ≠ .finding attempt) :
      PhaseLike lib secret users users' phase phase
  | verifying (attempt : Attempt) (user user' : Option Account)
      (hwrong : lib.Wrong user attempt.password) (hwrong' : lib.Wrong user' attempt.password) :
      PhaseLike lib secret users users' (.verifying attempt user) (.verifying attempt user')

structure Like (lib : Libraries) (secret : Text → Prop) (users users' : Text → Option Account)
    (left right : State) : Prop where
  limiter : left.limiter = right.limiter
  attempts : left.attempts = right.attempts
  tried : left.tried = right.tried
  known : ∀ email, ¬ secret email → left.users email = right.users email
  kept : ∀ email, secret email → left.users email = users email ∧ right.users email = users' email
  phases : ∀ call, PhaseLike lib secret users users' (left.phases call) (right.phases call)
  equalizer : ∀ promise, left.timingEqualizer = some promise → lib.Reads promise
  equalizer' : ∀ promise, right.timingEqualizer = some promise → lib.Reads promise

theorem like_init (hknown : ∀ email, ¬ secret email → users email = users' email) :
    Like lib secret users users' (State.init users) (State.init users') where
  limiter := rfl
  attempts := rfl
  tried := rfl
  known := hknown
  kept _ _ := ⟨rfl, rfl⟩
  phases _ := .same .idle (by simp)
  equalizer _ hpromise := by cases hpromise
  equalizer' _ hpromise := by cases hpromise

/-- One request moves on in both. -/
theorem Like.goto {phase phase' : Phase} (hlike : Like lib secret users users' left right)
    (call : Call) (hphase : PhaseLike lib secret users users' phase phase') :
    Like lib secret users users' (left.goto call phase) (right.goto call phase') := by
  refine ⟨hlike.limiter, hlike.attempts, hlike.tried, hlike.known, hlike.kept, ?_, hlike.equalizer,
    hlike.equalizer'⟩
  intro other
  by_cases heq : other = call
  · simpa only [heq, State.goto, Function.update_self] using hphase
  · simpa only [State.goto, Function.update_of_ne heq] using hlike.phases other

/-- A wrong password is a wrong password, whether there is a hash to check it against or not. -/
theorem afterVerify_wrong {equalizer : Option Text} {user : Option Account} {password : Text}
    (hreads : lib.Reads equalizer) (hwrong : lib.Wrong user password) :
    afterVerify user (lib.verifyPassword equalizer (user.bind Account.passwordHash) password).1 =
      .refused invalidCredentials := by
  obtain ⟨dummy, rfl, hdummy⟩ := hreads
  have hmissing : (lib.argon2Verify dummy password).map (fun _ => false) = some false := by
    obtain ⟨answer, hanswer⟩ := Option.ne_none_iff_exists'.mp (hdummy password)
    rw [hanswer, Option.map_some]
  cases user with
  | none =>
      rw [Option.bind_none, Libraries.verifyPassword]
      dsimp only
      rw [hmissing]
      rfl
  | some account =>
      rw [Option.bind_some]
      cases hhash : account.passwordHash with
      | none =>
          rw [Libraries.verifyPassword]
          dsimp only
          rw [hmissing]
          rfl
      | some hash =>
          cases hash with
          | nil =>
              rw [Libraries.verifyPassword]
              dsimp only
              rw [hmissing]
              rfl
          | cons char rest =>
              have hdiffers := hwrong account _ rfl hhash (List.cons_ne_nil char rest)
              have hanswer : (lib.argon2Verify (char :: rest) password).getD false = false := by
                cases hverify : lib.argon2Verify (char :: rest) password with
                | none => rfl
                | some answer =>
                    rw [hverify] at hdiffers
                    cases answer with
                    | true => exact absurd rfl hdiffers
                    | false => rfl
              simp [Libraries.verifyPassword, hanswer, afterVerify]

/-- With a hash the dummy is not looked at. -/
theorem verifyPassword_hash {equalizer equalizer' : Option Text} {user : Option Account}
    {password : Text} (hhash : lacksHash user = false) :
    lib.verifyPassword equalizer (user.bind Account.passwordHash) password =
      lib.verifyPassword equalizer' (user.bind Account.passwordHash) password := by
  unfold lacksHash at hhash
  unfold Libraries.verifyPassword
  split at hhash
  · cases hhash
  · cases hhash
  · rfl

theorem wrong_of_lacksHash {user : Option Account} (password : Text)
    (hlacks : lacksHash user = true) :
    lib.Wrong user password := by
  rintro account hash rfl hhash hne
  rw [lacksHash, Option.bind_some, hhash] at hlacks
  cases hash with
  | nil => exact absurd rfl hne
  | cons char rest => cases hlacks

/-- A password is checked against some hash, whether the account has one or not. -/
theorem runs_of_reads {equalizer : Option Text} (hreads : lib.Reads equalizer) (hash : Option Text)
    (password : Text) :
    ∃ checked, (lib.verifyPassword equalizer hash password).2 = [⟨checked, password⟩] := by
  obtain ⟨dummy, rfl, -⟩ := hreads
  unfold Libraries.verifyPassword
  split
  · exact ⟨_, rfl⟩
  · exact ⟨_, rfl⟩
  · exact ⟨_, rfl⟩

/-- Two requests whose password is verified at the same time. -/
theorem afterVerify_like {equalizer equalizer' : Option Text} {user user' : Option Account}
    {attempt : Attempt} (hreads : lib.Reads equalizer) (hreads' : lib.Reads equalizer')
    (hphases : PhaseLike lib secret users users' (.verifying attempt user)
      (.verifying attempt user')) :
    afterVerify user
      (lib.verifyPassword equalizer (user.bind Account.passwordHash) attempt.password).1 =
      afterVerify user'
        (lib.verifyPassword equalizer' (user'.bind Account.passwordHash) attempt.password).1 := by
  cases hphases with
  | verifying _ _ _ hwrong hwrong' =>
      rw [afterVerify_wrong hreads hwrong, afterVerify_wrong hreads' hwrong']
  | same _ hphase =>
      cases hlacks : lacksHash user with
      | true =>
          have hwrong : lib.Wrong user attempt.password := wrong_of_lacksHash _ hlacks
          rw [afterVerify_wrong hreads hwrong, afterVerify_wrong hreads' hwrong]
      | false => rw [verifyPassword_hash hlacks]

theorem reads_getD {promise : Option (Option Text)} {equalizer : Option Text}
    (hpromise : ∀ settled, promise = some settled → lib.Reads settled)
    (hreads : lib.Reads equalizer) :
    lib.Reads (promise.getD equalizer) := by
  cases promise with
  | none => exact hreads
  | some settled => exact hpromise settled rfl

theorem reads_cached {promise : Option (Option Text)} {equalizer settled : Option Text}
    {lacks : Bool} (hpromise : ∀ settled, promise = some settled → lib.Reads settled)
    (hreads : lib.Reads equalizer)
    (hsettled : (if lacks then some (promise.getD equalizer) else promise) = some settled) :
    lib.Reads settled := by
  cases lacks with
  | true =>
      cases hsettled
      exact reads_getD hpromise hreads
  | false => exact hpromise settled hsettled

/-- The two requests are idle together. -/
theorem PhaseLike.idle_iff {phase phase' : Phase}
    (hphases : PhaseLike lib secret users users' phase phase') :
    phase = .idle ↔ phase' = .idle := by
  cases hphases <;> simp

theorem Like.step (hlike : Like lib secret users users' left right)
    (hharmless : Harmless lib secret users users' action) :
    Option.Rel (Like lib secret users users') (step lib left action) (step lib right action) := by
  cases action with
  | setUser email user =>
      refine .some ⟨hlike.limiter, hlike.attempts, hlike.tried, ?_, ?_, hlike.phases,
        hlike.equalizer, hlike.equalizer'⟩
      · intro other hother
        by_cases heq : other = email
        · simp only [heq, Function.update_self]
        · simpa only [Function.update_of_ne heq] using hlike.known other hother
      · intro other hother
        have hne : other ≠ email := fun heq => hharmless (heq ▸ hother)
        simpa only [Function.update_of_ne hne] using hlike.kept other hother
  | consume call ip email password micros member lost =>
      have hidle := (hlike.phases call).idle_iff
      simp only [Login.step, consume]
      by_cases hleft : left.phases call = .idle
      · rw [hleft, hidle.mp hleft]
        dsimp only
        rw [hlike.limiter, hlike.attempts]
        cases Ratelimit.step loginOptions right.limiter ⟨lib.throttleId ip email, micros,
          member⟩ with
        | none => exact .none
        | some limiter =>
            refine .some ⟨rfl, rfl, hlike.tried, hlike.known, hlike.kept, ?_, hlike.equalizer,
              hlike.equalizer'⟩
            refine (hlike.goto call ?_).phases
            unfold afterThrottle
            split
            · exact .same _ (by simp)
            · split
              · exact .finding _ hharmless
              · exact .same _ (by simp)
      · have hright : right.phases call ≠ .idle := fun hright => hleft (hidle.mpr hright)
        split
        · exact absurd ‹_› hleft
        · exact .none
  | unreachable call =>
      have hidle := (hlike.phases call).idle_iff
      simp only [Login.step, unreachable]
      by_cases hleft : left.phases call = .idle
      · rw [hleft, hidle.mp hleft]
        exact .some (hlike.goto call (.same _ (by simp)))
      · have hright : right.phases call ≠ .idle := fun hright => hleft (hidle.mpr hright)
        split
        · exact absurd ‹_› hleft
        · exact .none
  | find call =>
      have hcall := hlike.phases call
      simp only [Login.step, find]
      generalize left.phases call = phase at hcall
      generalize right.phases call = phase' at hcall
      cases hcall with
      | finding attempt hwrong =>
          refine .some (hlike.goto call ?_)
          by_cases hsecret : secret attempt.email
          · rw [(hlike.kept _ hsecret).1, (hlike.kept _ hsecret).2]
            exact .verifying attempt _ _ (hwrong hsecret).1 (hwrong hsecret).2
          · rw [hlike.known _ hsecret]
            exact .same _ (by simp)
      | same _ hphase =>
          split
          · exact absurd rfl (hphase _)
          · exact .none
      | verifying attempt user user' hwrong hwrong' => exact .none
  | findFails call =>
      have hcall := hlike.phases call
      simp only [Login.step, findFails]
      generalize left.phases call = phase at hcall
      generalize right.phases call = phase' at hcall
      cases hcall with
      | finding attempt hwrong => exact .some (hlike.goto call (.same _ (by simp)))
      | same _ hphase =>
          split
          · exact absurd rfl (hphase _)
          · exact .none
      | verifying attempt user user' hwrong hwrong' => exact .none
  | verify call equalizer =>
      have hcall := hlike.phases call
      have hverify : ∀ attempt user user', PhaseLike lib secret users users'
          (.verifying attempt user) (.verifying attempt user') →
          left.phases call = .verifying attempt user →
            right.phases call = .verifying attempt user' →
          Option.Rel (Like lib secret users users') (Login.step lib left (.verify call equalizer))
            (Login.step lib right (.verify call equalizer)) := by
        intro attempt user user' hphases hleft hright
        have hsame := afterVerify_like (reads_getD hlike.equalizer hharmless)
          (reads_getD hlike.equalizer' hharmless) hphases
        simp only [Login.step, verify, hleft, hright, hsame]
        refine .some ⟨hlike.limiter, hlike.attempts, ?_, hlike.known, hlike.kept, ?_,
          fun _ => reads_cached hlike.equalizer hharmless,
          fun _ => reads_cached hlike.equalizer' hharmless⟩
        · obtain ⟨hash, hruns⟩ := runs_of_reads (reads_getD hlike.equalizer hharmless)
            (user.bind Account.passwordHash) attempt.password
          obtain ⟨hash', hruns'⟩ := runs_of_reads (reads_getD hlike.equalizer' hharmless)
            (user'.bind Account.passwordHash) attempt.password
          have htried := hlike.tried
          unfold State.tried at htried ⊢
          simp only [hruns, hruns', List.map_append, htried, List.map_singleton]
        · refine (hlike.goto call (.same _ ?_)).phases
          intro other
          have hnone := attempt?_afterVerify user' (lib.verifyPassword
            (right.timingEqualizer.getD equalizer)
            (user'.bind Account.passwordHash) attempt.password).1
          intro heq
          rw [heq] at hnone
          cases hnone
      have hnone : (∀ attempt user, left.phases call ≠ .verifying attempt user) →
          (∀ attempt user, right.phases call ≠ .verifying attempt user) →
          Option.Rel (Like lib secret users users') (Login.step lib left (.verify call equalizer))
            (Login.step lib right (.verify call equalizer)) := by
        intro hleft hright
        simp only [Login.step, verify]
        exact .none
      generalize hleft : left.phases call = phase at hcall hverify hnone
      generalize hright : right.phases call = phase' at hcall hverify hnone
      cases hcall with
      | finding attempt hwrong => exact hnone (by simp) (by simp)
      | verifying attempt user user' hwrong hwrong' =>
          exact hverify attempt user user' (.verifying attempt user user' hwrong hwrong') rfl rfl
      | same _ hphase =>
          cases hphases : phase with
          | verifying attempt user =>
              exact hverify attempt user user (.same _ (by simp)) hphases hphases
          | _ => exact hnone (by simp [hphases]) (by simp [hphases])

/-- What the client has been told. -/
def Phase.answer : Phase → Option Phase
  | .idle | .finding _ | .verifying _ _ => none
  | .authenticated userId role => some (.authenticated userId role)
  | .refused refusal => some (.refused refusal)

theorem PhaseLike.answer_eq {phase phase' : Phase}
    (hphases : PhaseLike lib secret users users' phase phase') : phase.answer = phase'.answer := by
  cases hphases <;> rfl

/-- Whether an email has an account cannot be told from the outside: two databases that agree on the
known accounts let the same runs happen and give every request the same answer, and `argon2.verify`
is run for the same requests in the same order. -/
theorem secret_accounts_unseen (lib : Libraries) (secret : Text → Prop)
    {users users' : Text → Option Account}
    (hknown : ∀ email, ¬ secret email → users email = users' email) {actions : List Action}
    (hharmless : ∀ action ∈ actions, Harmless lib secret users users' action) :
    (run (step lib) (State.init users) actions).isSome =
      (run (step lib) (State.init users') actions).isSome ∧
    ∀ left right, run (step lib) (State.init users) actions = some left →
      run (step lib) (State.init users') actions = some right →
      (∀ call, (left.phases call).answer = (right.phases call).answer) ∧
      left.limiter = right.limiter ∧ left.tried = right.tried := by
  have hmatches : Matches (step lib) (step lib) (Like lib secret users users')
      (Harmless lib secret users users') := fun _ _ _ hlike hharmless => hlike.step hharmless
  have hrun := hmatches.run (like_init hknown) hharmless
  refine ⟨rel_isSome hrun, fun left right hleft hright => ?_⟩
  have hlike := rel_of_eq_some hrun hleft hright
  exact ⟨fun call => (hlike.phases call).answer_eq, hlike.limiter, hlike.tried⟩

/-- A wrong password for an email that has an account in one database and none in the other. -/
def probe : List Action :=
  [.consume 0 "10.0.0.1".toList "ada@example.com".toList "guess".toList 0 ['0'] false, .find 0,
    .verify 0 (some "dummy".toList)]

theorem secret_accounts_unseen_probe :
    ∃ left right, run (step sampleLibraries) (State.init sampleUsers) probe = some left ∧
      run (step sampleLibraries) (State.init fun _ => none) probe = some right ∧
      (left.phases 0).answer = (right.phases 0).answer := by
  have hknown : ∀ email, ¬ email = "ada@example.com".toList → sampleUsers email = none :=
    fun email hother => if_neg hother
  have hharmless : ∀ action ∈ probe,
      Harmless sampleLibraries (· = "ada@example.com".toList) sampleUsers
      (fun _ => none) action := by
    intro action haction
    simp only [probe, List.mem_cons, List.not_mem_nil, or_false] at haction
    rcases haction with rfl | rfl | rfl
    · intro _
      refine ⟨?_, ?_⟩
      · intro account hash haccount hhash _
        rw [sampleUsers, if_pos rfl] at haccount
        cases haccount
        cases hhash
        decide
      · intro account hash haccount
        cases haccount
    · trivial
    · exact ⟨_, rfl, fun _ => Option.some_ne_none _⟩
  have hunseen := secret_accounts_unseen sampleLibraries _ hknown hharmless
  have hleft : (run (step sampleLibraries) (State.init sampleUsers) probe).isSome = true := by
    decide +kernel
  obtain ⟨left, hleft'⟩ := Option.isSome_iff_exists.mp hleft
  obtain ⟨right, hright⟩ := Option.isSome_iff_exists.mp (hunseen.1.symm.trans hleft)
  exact ⟨left, right, hleft', hright, (hunseen.2 left right hleft' hright).1 0⟩

end Marketplace.Login
