import Marketplace.Auth.LoginThrottle

/-!
# How many passwords can be tried

The verdict on a request depends on the earlier requests from the same address for the same email,
and every password that is checked was let in by a verdict of its own. So the requests that are let
in within fifteen minutes check no more than ten passwords, in whatever order they are served.
-/

namespace Marketplace.Login

open Ratelimit
  (SlidingWindowOptions LimitResult Answer UniqueMember redisNow allowedBetween allowedLog)
open SlidingWindow Transition

variable {lib : Libraries} {state after : State} {action : Action} {attempt : Attempt}

/-! ### The inversion of a step -/

inductive Takes (lib : Libraries) (before : State) : Action → State → Prop
  | setUser (email : Text) (user : Option Account) :
      Takes lib before (.setUser email user)
        { before with users := Function.update before.users email user }
  | consume (attempt : Attempt) (result : Option LimitResult) (limiter : Ratelimit.State)
      (lost : Bool) (hidle : before.phases attempt.call = .idle)
      (hallowed : attempt.allowed = result.any LimitResult.allowed) (hlost : attempt.lost = lost)
      (hlimiter : Ratelimit.step loginOptions before.limiter
        ⟨lib.throttleId attempt.ip attempt.email, attempt.micros, attempt.member⟩ = some limiter)
      (hanswers : limiter.answers = before.limiter.answers ++
        [⟨lib.throttleId attempt.ip attempt.email, attempt.micros, attempt.member, result⟩]) :
      Takes lib before
        (.consume attempt.call attempt.ip attempt.email attempt.password attempt.micros
          attempt.member lost)
        { (before.goto attempt.call (afterThrottle attempt (if lost then none else result))) with
          limiter := limiter
          attempts := before.attempts ++ [attempt] }
  | unreachable (call : Call) (hidle : before.phases call = .idle) :
      Takes lib before (.unreachable call) (before.goto call (.refused throttleUnavailable))
  | find (call : Call) (attempt : Attempt) (hphase : before.phases call = .finding attempt) :
      Takes lib before (.find call)
        (before.goto call (.verifying attempt (before.users attempt.email)))
  | findFails (call : Call) (attempt : Attempt) (hphase : before.phases call = .finding attempt) :
      Takes lib before (.findFails call) (before.goto call (.refused .threw))
  | verify (call : Call) (equalizer : Option Text) (attempt : Attempt) (user : Option Account)
      (hphase : before.phases call = .verifying attempt user) :
      Takes lib before (.verify call equalizer)
        { (before.goto call (afterVerify user (lib.verifyPassword
            (before.timingEqualizer.getD equalizer) (user.bind Account.passwordHash)
            attempt.password).1)) with
          timingEqualizer := if lacksHash user then some (before.timingEqualizer.getD equalizer)
            else before.timingEqualizer
          guesses := before.guesses ++ (lib.verifyPassword (before.timingEqualizer.getD equalizer)
            (user.bind Account.passwordHash) attempt.password).2.map (Guess.mk attempt) }

theorem step_takes (hstep : step lib state action = some after) : Takes lib state action after := by
  cases action with
  | setUser email user =>
      cases hstep
      exact .setUser email user
  | consume call ip email password micros member lost =>
      simp only [step, consume] at hstep
      split at hstep
      case h_2 => cases hstep
      rename_i hidle
      obtain ⟨limiter, hlimiter, hafter⟩ := Option.map_eq_some_iff.mp hstep
      have hanswers : limiter.answers = state.limiter.answers ++
          [⟨lib.throttleId ip email, micros, member, (Ratelimit.consume loginOptions
            state.limiter.redis ⟨lib.throttleId ip email, micros, member⟩).2⟩] := by
        unfold Ratelimit.step at hlimiter
        split at hlimiter
        · cases hlimiter
          rfl
        · cases hlimiter
      rw [← hafter]
      exact .consume ⟨call, ip, email, password, micros, member, _, lost⟩ _ limiter lost
        hidle rfl rfl
        hlimiter hanswers
  | unreachable call =>
      simp only [step, unreachable] at hstep
      split at hstep
      · rename_i hidle
        cases hstep
        exact .unreachable call hidle
      · cases hstep
  | find call =>
      simp only [step, find] at hstep
      split at hstep
      · rename_i attempt hphase
        cases hstep
        exact .find call attempt hphase
      · cases hstep
  | findFails call =>
      simp only [step, findFails] at hstep
      split at hstep
      · rename_i attempt hphase
        cases hstep
        exact .findFails call attempt hphase
      · cases hstep
  | verify call equalizer =>
      simp only [step, verify] at hstep
      split at hstep
      · rename_i attempt user hphase
        cases hstep
        exact .verify call equalizer attempt user hphase
      · cases hstep

/-! ### The history and the log of the limiter -/

/-- What the limiter logs of a request. -/
def Libraries.record (lib : Libraries) (attempt : Attempt) : Text × Nat × Text × Bool :=
  (lib.throttleId attempt.ip attempt.email, attempt.micros, attempt.member, attempt.allowed)

def recordOf (answer : Answer) : Text × Nat × Text × Bool :=
  (answer.id, answer.micros, answer.member, answer.allowed)

def Phase.attempt? : Phase → Option Attempt
  | .finding attempt | .verifying attempt _ => some attempt
  | .idle | .authenticated _ _ | .refused _ => none

/-- The requests whose password was checked. -/
def State.tried (state : State) : List Attempt := state.guesses.map Guess.attempt

/-- The throttle let it pass, and the reply came back. -/
structure Attempt.LetIn (attempt : Attempt) : Prop where
  allowed : attempt.allowed = true
  replied : attempt.lost = false

/-- The two logs tell the same, and what is on its way to a password check was let in and has not
been checked yet. -/
structure Inv (lib : Libraries) (state : State) : Prop where
  limiter : Ratelimit.Inv loginOptions state.limiter
  recorded : state.limiter.answers.map recordOf = state.attempts.map lib.record
  unique : (state.attempts.map Attempt.member).Nodup
  waiting : ∀ call attempt, (state.phases call).attempt? = some attempt →
    attempt ∈ state.attempts ∧ attempt.call = call ∧ attempt.LetIn ∧ attempt ∉ state.tried
  guessed : ∀ guess ∈ state.guesses, guess.attempt ∈ state.attempts ∧ guess.attempt.LetIn ∧
    guess.run.password = guess.attempt.password
  once : state.tried.Nodup

theorem inv_init (users : Text → Option Account) : Inv lib (State.init users) where
  limiter := Ratelimit.inv_init (by decide)
  recorded := rfl
  unique := List.nodup_nil
  waiting _ _ hphase := by cases hphase
  guessed _ hguess := absurd hguess List.not_mem_nil
  once := List.nodup_nil

theorem Inv.tried (hinv : Inv lib state) (htried : attempt ∈ state.tried) :
    attempt ∈ state.attempts ∧ attempt.LetIn := by
  obtain ⟨guess, hguess, rfl⟩ := List.mem_map.mp htried
  obtain ⟨hmem, hletIn, -⟩ := hinv.guessed guess hguess
  exact ⟨hmem, hletIn⟩

theorem members_eq (hinv : Inv lib state) :
    state.limiter.answers.map Answer.member = state.attempts.map Attempt.member := by
  have hmembers := congrArg (List.map fun record : Text × Nat × Text × Bool => record.2.2.1)
    hinv.recorded
  simpa [List.map_map, Function.comp_def, recordOf, Libraries.record] using hmembers

/-- A request that moves on, or ends, without a password check. -/
theorem Inv.goto {call : Call} {phase : Phase} (hinv : Inv lib state)
    (hkeeps : ∀ attempt, phase.attempt? = some attempt →
      (state.phases call).attempt? = some attempt) : Inv lib (state.goto call phase) := by
  refine ⟨hinv.limiter, hinv.recorded, hinv.unique, ?_, hinv.guessed, hinv.once⟩
  intro other attempt hphase
  by_cases heq : other = call
  · subst heq
    simp only [State.goto, Function.update_self] at hphase
    exact hinv.waiting other attempt (hkeeps attempt hphase)
  · simp only [State.goto, Function.update_of_ne heq] at hphase
    exact hinv.waiting other attempt hphase

theorem attempt?_afterThrottle {result : Option LimitResult} {other : Attempt} {lost : Bool}
    (hallowed : attempt.allowed = result.any LimitResult.allowed)
    (hphase : (afterThrottle attempt (if lost then none else result)).attempt? = some other) :
    other = attempt ∧ attempt.allowed = true ∧ lost = false := by
  cases lost with
  | true => cases hphase
  | false =>
      cases result with
      | none => cases hphase
      | some result =>
          simp only [Bool.false_eq_true, if_false, afterThrottle] at hphase
          split at hphase
          · rename_i hresult
            cases hphase
            exact ⟨rfl, by rw [hallowed, Option.any_some, hresult], rfl⟩
          · cases hphase

theorem attempt?_afterVerify (user : Option Account) (outcome : Option Bool) :
    (afterVerify user outcome).attempt? = none := by
  unfold afterVerify
  split
  · rfl
  · split <;> rfl

/-- One password is checked at most: the one that came with the request. -/
theorem runs_verifyPassword (equalizer hash : Option Text) (password : Text) :
    (lib.verifyPassword equalizer hash password).2 = [] ∨
      ∃ hash', (lib.verifyPassword equalizer hash password).2 = [⟨hash', password⟩] := by
  unfold Libraries.verifyPassword
  split
  · split
    · exact .inl rfl
    · exact .inr ⟨_, rfl⟩
  · split
    · exact .inl rfl
    · exact .inr ⟨_, rfl⟩
  · exact .inr ⟨_, rfl⟩

theorem Inv.step (hinv : Inv lib state) (hfresh : FreshMember state action)
    (hstep : step lib state action = some after) : Inv lib after := by
  cases step_takes hstep with
  | setUser email user =>
      exact ⟨hinv.limiter, hinv.recorded, hinv.unique, hinv.waiting, hinv.guessed,
        hinv.once⟩
  | consume attempt result limiter lost hidle hallowed hlost hlimiter hanswers =>
      have hmember : attempt.member ∉ state.attempts.map Attempt.member := by
        rw [← members_eq hinv]
        exact hfresh
      have hnew : attempt ∉ state.attempts := fun hmem => hmember (List.mem_map_of_mem hmem)
      have hunique : UniqueMember state.limiter
          ⟨lib.throttleId attempt.ip attempt.email, attempt.micros, attempt.member⟩ := hfresh
      refine ⟨hinv.limiter.step (by decide) hunique hlimiter, ?_, ?_, ?_, ?_, hinv.once⟩
      · rw [hanswers, List.map_append, List.map_append, hinv.recorded]
        simp [recordOf, Libraries.record, Answer.allowed, hallowed]
      · rw [List.map_append]
        exact hinv.unique.append (List.nodup_singleton _) (by simpa using hmember)
      · intro call other hphase
        by_cases heq : call = attempt.call
        · simp only [heq, State.goto, Function.update_self] at hphase
          obtain ⟨rfl, hpassed, hreplied⟩ := attempt?_afterThrottle hallowed hphase
          exact ⟨List.mem_append_right _ (List.mem_singleton_self _), heq.symm,
            ⟨hpassed, hlost.trans hreplied⟩, fun htried => hnew (hinv.tried htried).1⟩
        · simp only [State.goto, Function.update_of_ne heq] at hphase
          obtain ⟨hmem, hrest⟩ := hinv.waiting call other hphase
          exact ⟨List.mem_append_left _ hmem, hrest⟩
      · intro guess hguess
        obtain ⟨hmem, hrest⟩ := hinv.guessed guess hguess
        exact ⟨List.mem_append_left _ hmem, hrest⟩
  | unreachable call hidle => exact hinv.goto fun _ hnone => by cases hnone
  | find call attempt hphase => exact hinv.goto fun other hsame => by rw [hphase]; exact hsame
  | findFails call attempt hphase => exact hinv.goto fun _ hnone => by cases hnone
  | verify call equalizer attempt user hphase =>
      obtain ⟨hmem, hcall, hletIn, huntried⟩ := hinv.waiting call attempt (by rw [hphase]; rfl)
      have hothers : ∀ other waiting, other ≠ call → (state.phases other).attempt? = some waiting →
          waiting ≠ attempt := by
        rintro other waiting hne hother rfl
        exact hne ((hinv.waiting other waiting hother).2.1.symm.trans hcall)
      have hkept : Inv lib (state.goto call (afterVerify user (lib.verifyPassword
          (state.timingEqualizer.getD equalizer) (user.bind Account.passwordHash)
          attempt.password).1)) := hinv.goto fun other hnone => by
        rw [attempt?_afterVerify] at hnone
        cases hnone
      obtain hruns | ⟨hash, hruns⟩ := @runs_verifyPassword lib
        (state.timingEqualizer.getD equalizer) (user.bind Account.passwordHash) attempt.password
      · rw [hruns, List.map_nil, List.append_nil]
        exact ⟨hkept.limiter, hkept.recorded, hkept.unique, hkept.waiting,
          hkept.guessed, hkept.once⟩
      · rw [hruns, List.map_singleton]
        refine ⟨hkept.limiter, hkept.recorded, hkept.unique, ?_, ?_, ?_⟩
        · intro other waiting hother
          obtain ⟨hmem', hcall', hletIn', huntried'⟩ := hkept.waiting other waiting hother
          refine ⟨hmem', hcall', hletIn', fun htried => ?_⟩
          rw [State.tried, List.map_append, List.mem_append] at htried
          rcases htried with hold | hnew
          · exact huntried' hold
          · by_cases heq : other = call
            · simp [heq, State.goto, attempt?_afterVerify] at hother
            · simp only [State.goto, Function.update_of_ne heq] at hother
              exact hothers other waiting heq hother (List.mem_singleton.mp hnew)
        · intro guess hguess
          rcases List.mem_append.mp hguess with hold | hnew
          · exact hinv.guessed guess hold
          · rw [List.mem_singleton.mp hnew]
            exact ⟨hmem, hletIn, rfl⟩
        · rw [State.tried, List.map_append]
          exact hinv.once.append (List.nodup_singleton _) (by simpa using huntried)

theorem inv_reach {users : Text → Option Account}
    (hreach : Reach (step lib) FreshMember (State.init users) state) : Inv lib state :=
  hreach.invariant (Inv lib) (inv_init users) fun _ _ _ _ hinv hfresh hstep =>
    hinv.step hfresh hstep

/-! ### Verdicts -/

/-- The requests of an id that were let in. -/
def Libraries.admittedLog (lib : Libraries) (attempts : List Attempt) (id : Text) : List Attempt :=
  attempts.filter fun attempt => lib.throttleId attempt.ip attempt.email = id && attempt.allowed

/-- The requests from an address for an email, or for another one with the same hash, that were let
in at times in `(lo, hi]`. -/
def Libraries.admitted (lib : Libraries) (attempts : List Attempt) (ip email : Text) (lo hi : Int) :
    List Attempt :=
  attempts.filter fun attempt => attempt.allowed && (attempt.ip = ip &&
    lib.emailHash attempt.email = lib.emailHash email) && (lo < attempt.time && attempt.time ≤ hi)

/-- Digests are long enough to be cut to 32 characters. -/
def Libraries.Digests (lib : Libraries) : Prop := ∀ text, (lib.sha256Hex text).length = 64

/-- The hash has a fixed length, so the address ends where it begins. -/
theorem throttleId_inj (hdigests : lib.Digests) {ip ip' email email' : Text} :
    lib.throttleId ip email = lib.throttleId ip' email' ↔
      ip = ip' ∧ lib.emailHash email = lib.emailHash email' := by
  have hlength : ∀ email, (lib.emailHash email).length = 32 := fun email => by
    rw [Libraries.emailHash, List.length_take, hdigests]
    rfl
  constructor
  · intro heq
    obtain ⟨hip, hhash⟩ := List.append_inj' heq (by simp [hlength])
    exact ⟨hip, (List.cons.inj hhash).2⟩
  · rintro ⟨rfl, hhash⟩
    rw [Libraries.throttleId, Libraries.throttleId, hhash]

theorem admitted_eq (hdigests : lib.Digests) (attempts : List Attempt) (ip email : Text)
    (lo hi : Int) :
    lib.admitted attempts ip email lo hi =
      between Attempt.time (lib.admittedLog attempts (lib.throttleId ip email)) lo hi := by
  unfold Libraries.admitted Libraries.admittedLog between
  rw [List.filter_filter]
  refine List.filter_congr fun attempt _ => ?_
  rw [Bool.eq_iff_iff]
  simp only [Bool.and_eq_true, decide_eq_true_eq, throttleId_inj hdigests]
  tauto

def recordTime (record : Text × Nat × Text × Bool) : Int := redisNow record.2.1

theorem map_allowedLog (hinv : Inv lib state) (id : Text) :
    (allowedLog state.limiter.answers id).map recordOf =
      (lib.admittedLog state.attempts id).map lib.record := by
  have hanswers := List.filter_map (f := recordOf)
      (p := fun record => record.1 = id && record.2.2.2)
    (l := state.limiter.answers)
  have hattempts := List.filter_map (f := lib.record)
    (p := fun record => record.1 = id && record.2.2.2) (l := state.attempts)
  rw [hinv.recorded] at hanswers
  exact hanswers.symm.trans hattempts

theorem length_allowedBetween (hinv : Inv lib state) (id : Text) (lo hi : Int) :
    (allowedBetween state.limiter.answers id lo hi).length =
      (between Attempt.time (lib.admittedLog state.attempts id) lo hi).length := by
  have hrecords :
      (between recordTime ((allowedLog state.limiter.answers id).map recordOf) lo hi).length =
      (between recordTime ((lib.admittedLog state.attempts id).map lib.record) lo hi).length := by
    rw [map_allowedLog hinv id]
  rw [between_map, between_map, List.length_map, List.length_map] at hrecords
  exact hrecords

theorem bounded_admittedLog (hinv : Inv lib state) (id : Text) :
    Bounded Attempt.time loginAttemptLimit loginAttemptWindowMs
      (lib.admittedLog state.attempts id) := by
  intro start
  rw [← length_allowedBetween hinv]
  exact hinv.limiter.bounded id start

/-- The verdict on a request counts the requests before it. -/
theorem verdict_step {users : Text → Option Account} (hdigests : lib.Digests)
    (hreach : Reach (step lib) FreshMember (State.init users) state)
    (hstep : step lib state action = some after) :
    after.attempts = state.attempts ∨ ∃ attempt, after.attempts = state.attempts ++ [attempt] ∧
      (attempt.allowed = true ↔ ((lib.admitted state.attempts attempt.ip attempt.email
        (attempt.time - loginAttemptWindowMs) attempt.time).length : Int) < loginAttemptLimit) := by
  have hinv := inv_reach hreach
  cases step_takes hstep with
  | consume attempt result limiter lost hidle hallowed hlost hlimiter hanswers =>
      refine .inr ⟨attempt, rfl, ?_⟩
      obtain ⟨answer, hlogged, verdict, hresult, hexact, -⟩ :=
        Ratelimit.isExact_step (by decide) (by decide) hinv.limiter hlimiter
      rw [hanswers] at hlogged
      obtain rfl := List.singleton_injective (List.append_cancel_left hlogged)
      have hresult : result = some verdict := hresult
      rw [hallowed, hresult, Option.any_some, hexact, length_allowedBetween hinv,
        admitted_eq hdigests]
      rfl
  | _ => exact .inl rfl

/-! ### Answers -/

/-- What a request is told whose reply was lost or that was not let in. -/
def Told (attempt : Attempt) (phase : Phase) : Prop :=
  (attempt.lost = true → phase = .refused throttleUnavailable) ∧
    (attempt.lost = false → ∃ verdict, phase = .refused (tooMany verdict))

theorem Told.refused {phase : Phase} (htold : Told attempt phase) :
    ∃ refusal, phase = .refused refusal := by
  cases hlost : attempt.lost with
  | true => exact ⟨_, htold.1 hlost⟩
  | false =>
      obtain ⟨verdict, hphase⟩ := htold.2 hlost
      exact ⟨_, hphase⟩

theorem told_afterThrottle {verdict : LimitResult} {lost : Bool}
    (hallowed : attempt.allowed = verdict.allowed) (hlost : attempt.lost = lost)
    (hout : attempt.lost = true ∨ attempt.allowed = false) :
    Told attempt (afterThrottle attempt (if lost then none else some verdict)) := by
  constructor
  · intro htrue
    rw [← hlost, htrue]
    rfl
  · intro hfalse
    have hdenied : verdict.allowed = false := by
      rw [← hallowed]
      exact hout.resolve_left (by rw [hfalse]; exact Bool.false_ne_true)
    refine ⟨verdict, ?_⟩
    rw [← hlost, hfalse]
    simp [afterThrottle, hdenied]

theorem afterThrottle_tooMany {result : Option LimitResult} {verdict : LimitResult} {lost : Bool}
    (hallowed : attempt.allowed = result.any LimitResult.allowed)
    (hphase : afterThrottle attempt (if lost then none else result) = .refused (tooMany verdict)) :
    attempt.allowed = false ∧ lost = false := by
  cases lost with
  | true => simp [afterThrottle, throttleUnavailable, tooMany] at hphase
  | false =>
      cases result with
      | none => simp [afterThrottle, throttleUnavailable, tooMany] at hphase
      | some result =>
          simp only [Bool.false_eq_true, if_false, afterThrottle] at hphase
          split at hphase
          · cases hphase
          · rename_i hrefused
            rw [hallowed, Option.any_some]
            exact ⟨Bool.eq_false_of_not_eq_true hrefused, rfl⟩

theorem afterVerify_ne_tooMany (user : Option Account) (outcome : Option Bool)
    (verdict : LimitResult) :
    afterVerify user outcome ≠ .refused (tooMany verdict) := by
  unfold afterVerify
  split
  · simp [tooMany]
  · split <;> simp [tooMany, invalidCredentials]

/-- Only a hash of the account itself can log in, and it is the one that was checked. -/
theorem afterVerify_authenticated {equalizer : Option Text} {user : Option Account}
    {password : Text} {userId : UserId} {role : UserRole} (hphase : afterVerify user
      (lib.verifyPassword equalizer (user.bind Account.passwordHash) password).1 =
        .authenticated userId role) :
    ∃ hash, user = some ⟨userId, role, some hash⟩ ∧ lib.argon2Verify hash password = some true ∧
      (lib.verifyPassword equalizer (user.bind Account.passwordHash) password).2 =
        [⟨hash, password⟩] := by
  unfold afterVerify at hphase
  split at hphase
  · cases hphase
  rename_i passwordOk hverify
  split at hphase
  case h_2 => cases hphase
  rename_i account
  cases hphase
  obtain ⟨id, role, stored⟩ := account
  rw [Option.bind_some] at hverify ⊢
  unfold Libraries.verifyPassword at hverify ⊢
  have hmissing : ∀ dummy, (lib.argon2Verify dummy password).map (fun _ => false) ≠ some true := by
    intro dummy heq
    obtain ⟨-, -, hfalse⟩ := Option.map_eq_some_iff.mp heq
    cases hfalse
  split at hverify
  · split at hverify
    · cases hverify
    · exact absurd hverify (hmissing _)
  · split at hverify
    · cases hverify
    · exact absurd hverify (hmissing _)
  · rename_i hash _ hhash
    dsimp only at hhash hverify
    subst hhash
    refine ⟨hash, rfl, ?_, rfl⟩
    cases hargon : lib.argon2Verify hash password with
    | none => simp [hargon] at hverify
    | some answer => simpa [hargon] using hverify

/-- What the throttle has told the requests. -/
structure Answered (state : State) : Prop where
  told : ∀ attempt ∈ state.attempts, attempt.lost = true ∨ attempt.allowed = false →
    Told attempt (state.phases attempt.call)
  tooMany : ∀ call verdict, state.phases call = .refused (tooMany verdict) →
    ∃ attempt ∈ state.attempts, attempt.call = call ∧ attempt.allowed = false ∧ attempt.lost = false

theorem answered_init (users : Text → Option Account) : Answered (State.init users) where
  told _ hattempt := absurd hattempt List.not_mem_nil
  tooMany _ _ hphase := by cases hphase

/-- A request that has not been refused yet goes on. -/
theorem Answered.goto {call : Call} {phase : Phase} (hanswered : Answered state)
    (hopen : ∀ refusal, state.phases call ≠ .refused refusal)
    (htooMany : ∀ verdict, phase ≠ .refused (Login.tooMany verdict)) :
    Answered (state.goto call phase) := by
  constructor
  · intro attempt hattempt hout
    have htold := hanswered.told attempt hattempt hout
    have hne : attempt.call ≠ call := by
      rintro rfl
      obtain ⟨refusal, hphase⟩ := htold.refused
      exact hopen refusal hphase
    simpa only [State.goto, Function.update_of_ne hne] using htold
  · intro other verdict hphase
    by_cases heq : other = call
    · subst heq
      simp only [State.goto, Function.update_self] at hphase
      exact absurd hphase (htooMany verdict)
    · simp only [State.goto, Function.update_of_ne heq] at hphase
      exact hanswered.tooMany other verdict hphase

/-- The script always has a verdict. -/
theorem exists_verdict (hinv : Inv lib state) {result : Option LimitResult}
    {limiter : Ratelimit.State} (hlimiter : Ratelimit.step loginOptions state.limiter
      ⟨lib.throttleId attempt.ip attempt.email, attempt.micros, attempt.member⟩ = some limiter)
    (hanswers : limiter.answers = state.limiter.answers ++
      [⟨lib.throttleId attempt.ip attempt.email, attempt.micros, attempt.member, result⟩]) :
    ∃ verdict, result = some verdict := by
  obtain ⟨answer, hlogged, verdict, hresult, -, -⟩ :=
    Ratelimit.isExact_step (by decide) (by decide) hinv.limiter hlimiter
  rw [hanswers] at hlogged
  obtain rfl := List.singleton_injective (List.append_cancel_left hlogged)
  exact ⟨verdict, hresult⟩

theorem Answered.step (hanswered : Answered state) (hinv : Inv lib state)
    (hstep : step lib state action = some after) : Answered after := by
  cases step_takes hstep with
  | setUser email user => exact ⟨hanswered.told, hanswered.tooMany⟩
  | consume attempt result limiter lost hidle hallowed hlost hlimiter hanswers =>
      obtain ⟨verdict, rfl⟩ := exists_verdict hinv hlimiter hanswers
      constructor
      · intro other hother hout
        rcases List.mem_append.mp hother with hold | hnew
        · have htold := hanswered.told other hold hout
          have hne : other.call ≠ attempt.call := by
            intro heq
            obtain ⟨refusal, hphase⟩ := htold.refused
            rw [heq, hidle] at hphase
            cases hphase
          simpa only [State.goto, Function.update_of_ne hne] using htold
        · obtain rfl := List.mem_singleton.mp hnew
          simp only [State.goto, Function.update_self]
          exact told_afterThrottle hallowed hlost hout
      · intro call verdict' hphase
        by_cases heq : call = attempt.call
        · simp only [heq, State.goto, Function.update_self] at hphase
          obtain ⟨hdenied, hreplied⟩ := afterThrottle_tooMany hallowed hphase
          exact ⟨attempt, List.mem_append_right _ (List.mem_singleton_self _), heq.symm, hdenied,
            hlost.trans hreplied⟩
        · simp only [State.goto, Function.update_of_ne heq] at hphase
          obtain ⟨denied, hmem, hrest⟩ := hanswered.tooMany call verdict' hphase
          exact ⟨denied, List.mem_append_left _ hmem, hrest⟩
  | unreachable call hidle =>
      exact hanswered.goto (by simp [hidle]) (by simp [throttleUnavailable, Login.tooMany])
  | find call attempt hphase => exact hanswered.goto (by simp [hphase]) (by simp)
  | findFails call attempt hphase =>
      exact hanswered.goto (by simp [hphase]) (by simp [Login.tooMany])
  | verify call equalizer attempt user hphase =>
      have hgoto : Answered (state.goto call (afterVerify user (lib.verifyPassword
          (state.timingEqualizer.getD equalizer) (user.bind Account.passwordHash)
          attempt.password).1)) :=
        hanswered.goto (by simp [hphase]) (afterVerify_ne_tooMany _ _)
      exact ⟨hgoto.told, hgoto.tooMany⟩

theorem answered_reach {users : Text → Option Account}
    (hreach : Reach (step lib) FreshMember (State.init users) state) : Answered state :=
  hreach.invariant Answered (answered_init users)
    fun _ _ _ hbefore hanswered _ hstep => hanswered.step (inv_reach hbefore) hstep

/-! ### Who logs in -/

/-- In some state of the run the account was in the database, under this email. -/
def Stored (lib : Libraries) (users : Text → Option Account) (state : State) (email : Text)
    (account : Account) : Prop :=
  ∃ before, Reach (step lib) FreshMember (State.init users) before ∧
    Reach (step lib) FreshMember before state ∧ before.users email = some account

section Known

variable {users : Text → Option Account}

theorem Stored.step {email : Text} {account : Account}
    (hstored : Stored lib users state email account) (hfresh : FreshMember state action)
    (hstep : step lib state action = some after) :
    Stored lib users after email account := by
  obtain ⟨before, hbefore, hrest, husers⟩ := hstored
  exact ⟨before, hbefore, hrest.tail hfresh hstep, husers⟩

/-- A password was checked for the call against the hash of the account that it logs in to. -/
def Proved (lib : Libraries) (users : Text → Option Account) (state : State) (call : Call)
    (userId : UserId) (role : UserRole) : Prop :=
  ∃ guess ∈ state.guesses, guess.attempt.call = call ∧
    lib.argon2Verify guess.run.hash guess.attempt.password = some true ∧
    Stored lib users state guess.attempt.email ⟨userId, role, some guess.run.hash⟩

/-- The accounts that the calls have to do with were read from the database. -/
structure Known (lib : Libraries) (users : Text → Option Account) (state : State) : Prop where
  verifying : ∀ call attempt account, state.phases call = .verifying attempt (some account) →
    Stored lib users state attempt.email account
  authenticated : ∀ call userId role, state.phases call = .authenticated userId role →
    Proved lib users state call userId role

theorem known_init : Known lib users (State.init users) where
  verifying _ _ _ hphase := by cases hphase
  authenticated _ _ _ hphase := by cases hphase

/-- At most one call changes its phase. -/
theorem Known.goto {call : Call} {phase : Phase} (hknown : Known lib users state)
    (hfresh : FreshMember state action) (hstep : Login.step lib state action = some after)
    (hphases : ∀ other, other ≠ call → after.phases other = state.phases other)
    (hphase : after.phases call = phase) (hguesses : state.guesses ⊆ after.guesses)
    (hverifying : ∀ attempt account, phase = .verifying attempt (some account) →
      Stored lib users after attempt.email account)
    (hauthenticated : ∀ userId role, phase = .authenticated userId role →
      Proved lib users after call userId role) : Known lib users after := by
  constructor
  · intro other attempt account hother
    by_cases heq : other = call
    · exact hverifying attempt account (hphase.symm.trans (heq ▸ hother))
    · rw [hphases other heq] at hother
      exact (hknown.verifying other attempt account hother).step hfresh hstep
  · intro other userId role hother
    by_cases heq : other = call
    · rw [heq] at hother ⊢
      exact hauthenticated userId role (hphase.symm.trans hother)
    · rw [hphases other heq] at hother
      obtain ⟨guess, hguess, hcall, hverify, hstored⟩ :=
        hknown.authenticated other userId role hother
      exact ⟨guess, hguesses hguess, hcall, hverify, hstored.step hfresh hstep⟩

theorem Known.step (hknown : Known lib users state)
    (hreach : Reach (Login.step lib) FreshMember (State.init users) state)
    (hfresh : FreshMember state action) (hstep : Login.step lib state action = some after) :
    Known lib users after := by
  have hothers : ∀ (call : Call) (phase : Phase) other, other ≠ call →
      (state.goto call phase).phases other = state.phases other :=
    fun call phase other hne => Function.update_of_ne hne _ _
  have hself : ∀ (call : Call) (phase : Phase), (state.goto call phase).phases call = phase :=
    fun call phase => Function.update_self _ _ _
  cases step_takes hstep with
  | setUser email user =>
      constructor
      · intro call attempt account hphase
        exact (hknown.verifying call attempt account hphase).step hfresh hstep
      · intro call userId role hphase
        obtain ⟨guess, hguess, hcall, hverify, hstored⟩ :=
          hknown.authenticated call userId role hphase
        exact ⟨guess, hguess, hcall, hverify, hstored.step hfresh hstep⟩
  | consume attempt result limiter lost hidle hallowed hlost hlimiter hanswers =>
      refine hknown.goto hfresh hstep (hothers attempt.call _) (hself _ _)
        (List.Subset.refl _) ?_ ?_
      · intro other account hphase
        unfold afterThrottle at hphase
        split at hphase
        · cases hphase
        · split at hphase <;> cases hphase
      · intro userId role hphase
        unfold afterThrottle at hphase
        split at hphase
        · cases hphase
        · split at hphase <;> cases hphase
  | unreachable call hidle =>
      exact hknown.goto hfresh hstep (hothers call _) (hself _ _) (List.Subset.refl _) (by simp)
        (by simp)
  | find call attempt hphase =>
      refine hknown.goto hfresh hstep (hothers call _) (hself _ _) (List.Subset.refl _) ?_ (by simp)
      intro other account hfound
      rw [Phase.verifying.injEq] at hfound
      obtain ⟨rfl, husers⟩ := hfound
      exact ⟨state, hreach, Reach.refl.tail hfresh hstep, husers⟩
  | findFails call attempt hphase =>
      exact hknown.goto hfresh hstep (hothers call _) (hself _ _) (List.Subset.refl _) (by simp)
        (by simp)
  | verify call equalizer attempt user hphase =>
      refine hknown.goto hfresh hstep (hothers call _) (hself _ _)
        (List.subset_append_left _ _) ?_ ?_
      · intro other account hverifying
        have hnone := attempt?_afterVerify user (lib.verifyPassword
          (state.timingEqualizer.getD equalizer)
          (user.bind Account.passwordHash) attempt.password).1
        rw [hverifying] at hnone
        cases hnone
      · intro userId role hauthenticated
        obtain ⟨hash, rfl, hverify, hruns⟩ := afterVerify_authenticated hauthenticated
        obtain ⟨-, hcall, -, -⟩ := (inv_reach hreach).waiting call attempt (by rw [hphase]; rfl)
        refine ⟨⟨attempt, hash, attempt.password⟩, ?_, hcall, hverify,
          (hknown.verifying call attempt _ hphase).step hfresh hstep⟩
        rw [hruns]
        exact List.mem_append_right _ (List.mem_singleton_self _)

theorem known_reach (hreach : Reach (step lib) FreshMember (State.init users) state) :
    Known lib users state :=
  hreach.invariant (Known lib users) known_init
    fun _ _ _ hbefore hknown hfresh hstep => hknown.step hbefore hfresh hstep

end Known

/-- A request reaches the script once. -/
structure Called (state : State) : Prop where
  started : ∀ attempt ∈ state.attempts, state.phases attempt.call ≠ .idle
  once : ∀ left ∈ state.attempts, ∀ right ∈ state.attempts, left.call = right.call → left = right

theorem called_init (users : Text → Option Account) : Called (State.init users) :=
  ⟨fun _ hattempt => absurd hattempt List.not_mem_nil, fun _ hleft => absurd hleft List.not_mem_nil⟩

theorem Called.goto {phase : Phase} (hcalled : Called state) (call : Call)
    (hphase : phase ≠ .idle) :
    Called (state.goto call phase) := by
  refine ⟨fun attempt hattempt => ?_, hcalled.once⟩
  by_cases heq : attempt.call = call
  · simpa only [heq, State.goto, Function.update_self] using hphase
  · simpa only [State.goto, Function.update_of_ne heq] using hcalled.started attempt hattempt

theorem Called.step (hcalled : Called state) (hstep : step lib state action = some after) :
    Called after := by
  cases step_takes hstep with
  | setUser email user => exact ⟨hcalled.started, hcalled.once⟩
  | consume attempt result limiter lost hidle hallowed hlost hlimiter hanswers =>
      have hnew : ∀ other ∈ state.attempts, other.call ≠ attempt.call := fun other hother heq =>
        hcalled.started other hother (heq ▸ hidle)
      have hphase : afterThrottle attempt (if lost then none else result) ≠ .idle := by
        unfold afterThrottle
        split
        · simp
        · split <;> simp
      refine ⟨fun other hother => ?_, fun left hleft right hright heq => ?_⟩
      · rcases List.mem_append.mp hother with hold | hnew'
        · exact (hcalled.goto attempt.call hphase).started other hold
        · rw [List.mem_singleton.mp hnew']
          simpa only [State.goto, Function.update_self] using hphase
      · rcases List.mem_append.mp hleft with hleft | hleft <;>
          rcases List.mem_append.mp hright with hright | hright
        · exact hcalled.once left hleft right hright heq
        · rw [List.mem_singleton.mp hright] at heq
          exact absurd heq (hnew left hleft)
        · rw [List.mem_singleton.mp hleft] at heq
          exact absurd heq.symm (hnew right hright)
        · rw [List.mem_singleton.mp hleft, List.mem_singleton.mp hright]
  | unreachable call hidle => exact hcalled.goto call (by simp)
  | find call attempt hphase => exact hcalled.goto call (by simp)
  | findFails call attempt hphase => exact hcalled.goto call (by simp)
  | verify call equalizer attempt user hphase =>
      have hphase : afterVerify user (lib.verifyPassword (state.timingEqualizer.getD equalizer)
          (user.bind Account.passwordHash) attempt.password).1 ≠ .idle := by
        unfold afterVerify
        split
        · simp
        · split <;> simp
      have hgoto := hcalled.goto call hphase
      exact ⟨hgoto.started, hgoto.once⟩

/-! ### The throttle and the guesses -/

structure ThrottleExact (lib : Libraries) (state : State) : Prop where
  /-- A request is let in if fewer than ten from its address for its email were in the last
  window. -/
  verdict : ∀ earlier attempt later, state.attempts = earlier ++ attempt :: later →
    (attempt.allowed = true ↔ ((lib.admitted earlier attempt.ip attempt.email
      (attempt.time - loginAttemptWindowMs) attempt.time).length : Int) < loginAttemptLimit)
  /-- Whoever is not let in is answered 429, and 503 if the reply of Redis is lost, as is everybody
  whose reply is lost; his password is not looked at. -/
  told : ∀ attempt ∈ state.attempts, attempt.lost = true ∨ attempt.allowed = false →
    attempt ∉ state.tried ∧
    (attempt.lost = true → state.phases attempt.call = .refused throttleUnavailable) ∧
    (attempt.lost = false → ∃ result, state.phases attempt.call = .refused (tooMany result))
  /-- Nobody else is answered 429. -/
  tooMany : ∀ call result, state.phases call = .refused (tooMany result) →
    ∃ attempt ∈ state.attempts, attempt.call = call ∧ attempt.allowed = false ∧ attempt.lost = false

/-- The throttle of the login is an exact sliding window over the requests from one address for one
email: no requests from another address, and none for an email with another hash, count. -/
theorem throttle_exact (lib : Libraries) (hdigests : lib.Digests) {users : Text → Option Account}
    {state : State} (hreach : Reach (step lib) FreshMember (State.init users) state) :
    ThrottleExact lib state := by
  have hinv := inv_reach hreach
  have hanswered := answered_reach hreach
  refine ⟨?_, ?_, hanswered.tooMany⟩
  · have hinit : (State.init users).attempts = [] := rfl
    exact hreach.forall_new_entry hinit
      fun state action after hstate _ hstep => verdict_step hdigests hstate hstep
  · intro attempt hattempt hout
    refine ⟨fun htried => ?_, hanswered.told attempt hattempt hout⟩
    obtain ⟨hpassed, hreplied⟩ := (hinv.tried htried).2
    rw [hpassed, hreplied] at hout
    simp at hout

/-- Of the requests whose password was checked, those from an address for an email, in whatever
letter case, that were let in at times in `(start, start + window]`. -/
def Libraries.triedIn (lib : Libraries) (tried : List Attempt) (ip email : Text) (start : Int) :
    List Attempt :=
  between Attempt.time (tried.filter fun attempt =>
    attempt.ip = ip && lib.normalize attempt.email = lib.normalize email) start
    (start + loginAttemptWindowMs)

/-- The requests from an address for an email that are let in within fifteen minutes check no more
than ten passwords, however late they check them: each one at most, its own, and only if the
throttle let it in. Nobody logs in but by such a check against the hash that the database had for
the email. -/
theorem guesses_bounded (lib : Libraries) {users : Text → Option Account} {state : State}
    (hreach : Reach (step lib) FreshMember (State.init users) state) :
    (∀ ip email start, ((lib.triedIn state.tried ip email start).length : Int) ≤
      loginAttemptLimit) ∧
    (∀ left ∈ state.tried, ∀ right ∈ state.tried, left.call = right.call → left = right) ∧
    state.tried.Nodup ∧
    (∀ guess ∈ state.guesses, guess.attempt ∈ state.attempts ∧ guess.attempt.allowed = true ∧
      guess.attempt.lost = false ∧ guess.run.password = guess.attempt.password) ∧
    ∀ call userId role, state.phases call = .authenticated userId role →
      ∃ guess ∈ state.guesses, guess.attempt.call = call ∧
        lib.argon2Verify guess.run.hash guess.attempt.password = some true ∧
        Stored lib users state guess.attempt.email ⟨userId, role, some guess.run.hash⟩ := by
  have hinv := inv_reach hreach
  refine ⟨?_, ?_, hinv.once, ?_, (known_reach hreach).authenticated⟩
  · intro ip email start
    refine ((bounded_admittedLog hinv (lib.throttleId ip email)).of_subset Attempt.time
      (hinv.once.filter _) fun attempt hattempt => ?_) start
    obtain ⟨hmem, hsame⟩ := List.mem_filter.mp hattempt
    obtain ⟨hlogged, hletIn⟩ := hinv.tried hmem
    simp only [Bool.and_eq_true, decide_eq_true_eq] at hsame
    refine List.mem_filter.mpr ⟨hlogged, ?_⟩
    simp [Libraries.throttleId, Libraries.emailHash, hsame.1, hsame.2, hletIn.allowed]
  · intro left hleft right hright hcall
    have hcalled : Called state := hreach.invariant Called (called_init users)
      fun _ _ _ _ hcalled _ hstep => hcalled.step hstep
    exact hcalled.once left (hinv.tried hleft).1 right (hinv.tried hright).1 hcall
  · intro guess hguess
    obtain ⟨hmem, hletIn, hpassword⟩ := hinv.guessed guess hguess
    exact ⟨hmem, hletIn.allowed, hletIn.replied, hpassword⟩

/-- Libraries that know the digest of one email; the hash of a password is the password itself. -/
def sampleLibraries : Libraries where
  toLowerCase := List.map Char.toLower
  sha256Hex text :=
    if text = "ada@example.com".toList then
      "b5fc85e55755f9e0d030a10ab4429b6b2944855f9a0d60077fe832becbc41d72".toList
    else List.replicate 64 '0'
  argon2Verify hash password := some (hash = password)

theorem digests_sampleLibraries : sampleLibraries.Digests := by
  intro text
  unfold sampleLibraries
  dsimp only
  split
  · rfl
  · exact List.length_replicate

def sampleUsers : Text → Option Account := fun email =>
  if email = "ada@example.com".toList then some ⟨7, .seller, some "secret".toList⟩ else none

/-- Eleven requests within eleven seconds from one address, with the email in two letter cases; then
one from another address. -/
def burst : List Action :=
  (List.range 11).map (fun count => .consume count "10.0.0.1".toList
    (if count < 5 then "Ada@example.com".toList else " ada@example.com".toList) "guess".toList
    (count * 1000000) (decimal count) false) ++
  [.consume 11 "10.0.0.2".toList "ada@example.com".toList "secret".toList 11000000
    (decimal 11) false,
    .find 11, .verify 11 none, .find 0, .verify 0 (some "dummy".toList)]

theorem throttle_exact_burst :
    ∃ state, Reach (step sampleLibraries) FreshMember (State.init sampleUsers) state ∧
      state.attempts.map Attempt.allowed = List.replicate 10 true ++ [false, true] ∧
      ThrottleExact sampleLibraries state := by
  obtain ⟨state, hreach, hcheck⟩ : ∃ state,
      Reach (step sampleLibraries) FreshMember (State.init sampleUsers) state ∧
        decide (state.attempts.map Attempt.allowed = List.replicate 10 true ++
          [false, true]) = true :=
    exists_reach_of_runWithin burst (by decide +kernel)
  exact ⟨state, hreach, of_decide_eq_true hcheck,
    throttle_exact sampleLibraries digests_sampleLibraries hreach⟩

theorem guesses_bounded_burst :
    ∃ state, Reach (step sampleLibraries) FreshMember (State.init sampleUsers) state ∧
      state.phases 11 = .authenticated 7 .seller ∧ state.phases 0 = .refused invalidCredentials ∧
      ((sampleLibraries.triedIn state.tried "10.0.0.2".toList "ADA@example.com".toList 0).length :
        Int) ≤ loginAttemptLimit := by
  obtain ⟨state, hreach, hcheck⟩ : ∃ state,
      Reach (step sampleLibraries) FreshMember (State.init sampleUsers) state ∧
        decide (state.phases 11 = .authenticated 7 .seller ∧
          state.phases 0 = .refused invalidCredentials) = true :=
    exists_reach_of_runWithin burst (by decide +kernel)
  obtain ⟨hsuccess, hfailure⟩ := of_decide_eq_true hcheck
  exact ⟨state, hreach, hsuccess, hfailure, (guesses_bounded sampleLibraries hreach).1 _ _ _⟩

end Marketplace.Login
