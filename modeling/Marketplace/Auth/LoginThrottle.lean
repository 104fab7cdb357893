import Marketplace.Auth.AccessToken
import Marketplace.Lib.JsText
import Marketplace.Ratelimit.SlidingWindowExact

/-!
# The way to a login

`AuthController.login`: the throttle, the query by email, `verifyPassword`. Every `await` is a point
where other requests move, the throttle is one script in Redis, and any of the three services may
fail. A request whose password is right goes on to `RefreshTokenService.issue`.
-/

namespace Marketplace.Login

open JsText (trim)
open Ratelimit (SlidingWindowOptions LimitResult Answer UniqueMember redisNow)
open Transition

/-- What the handler takes from its libraries. -/
structure Libraries where
  toLowerCase : Text → Text
  sha256Hex : Text → Text
  /-- `argon2.verify(hash, password)`; `none` rejects. -/
  argon2Verify : Text → Text → Option Bool

/-- A run of `argon2.verify`. -/
structure Argon2Run where
  hash : Text
  password : Text
  deriving DecidableEq

structure Account where
  id : UserId
  role : UserRole
  passwordHash : Option Text
  deriving DecidableEq

def loginOptions : SlidingWindowOptions where
  limit := loginAttemptLimit
  windowMs := loginAttemptWindowMs
  keyPrefix := ['r', 'l', ':', 'l', 'o', 'g', 'i', 'n']
  failOpen := false

section Functions

variable (lib : Libraries)

def Libraries.normalize (email : Text) : Text := lib.toLowerCase (trim email)

def Libraries.emailHash (email : Text) : Text := (lib.sha256Hex (lib.normalize email)).take 32

/-- The id that `LoginThrottle.consume` hands to the limiter. -/
def Libraries.throttleId (ip email : Text) : Text := ip ++ ':' :: lib.emailHash email

/-- `verifyPassword`: its outcome, where `none` rejects, and its runs of `argon2.verify`. Without a
hash the password is checked against the one of `timingEqualizer`, and the outcome is thrown
away. -/
def Libraries.verifyPassword (timingEqualizer : Option Text) (hash : Option Text)
    (password : Text) :
    Option Bool × List Argon2Run :=
  match hash with
  | none | some [] =>
      match timingEqualizer with
      | none => (none, [])
      | some equalizer =>
          ((lib.argon2Verify equalizer password).map fun _ => false, [⟨equalizer, password⟩])
  | some hash => (some ((lib.argon2Verify hash password).getD false), [⟨hash, password⟩])

end Functions

/-- The answer to a request that does not log in; an error that is no `HttpException` is `threw`. -/
inductive Refusal where
  | http (error : HttpError) (retryAfter : Option Int)
  | threw
  deriving DecidableEq

def tooMany (result : LimitResult) : Refusal :=
  .http ⟨429, "Забагато спроб входу, спробуйте пізніше"⟩ (some result.retryAfterSec)

def throttleUnavailable : Refusal :=
  .http ⟨503, "Не вдалося перевірити ліміт спроб входу, спробуйте пізніше"⟩ none

def invalidCredentials : Refusal := .http ⟨401, "Невірний email або пароль"⟩ none

/-- A request that has reached the script, what the script said, and whether its reply was lost. -/
structure Attempt where
  call : Call
  ip : Text
  email : Text
  password : Text
  micros : Nat
  member : Text
  allowed : Bool
  lost : Bool
  deriving DecidableEq

def Attempt.time (attempt : Attempt) : Int := redisNow attempt.micros

/-- A password that was checked for a request. -/
structure Guess where
  attempt : Attempt
  run : Argon2Run
  deriving DecidableEq

inductive Phase where
  | idle
  /-- The throttle let it pass: the query by email is next. -/
  | finding (attempt : Attempt)
  | verifying (attempt : Attempt) (user : Option Account)
  /-- The password was right: `issue` is next. -/
  | authenticated (userId : UserId) (role : UserRole)
  | refused (refusal : Refusal)
  deriving DecidableEq

/-- The last two fields are history: the requests that reached the script, and the runs of
`argon2.verify`. -/
structure State where
  limiter : Ratelimit.State
  users : Text → Option Account
  /-- The promise of the process: what `argon2.hash` made of it, if it is there. -/
  timingEqualizer : Option (Option Text)
  phases : Call → Phase
  attempts : List Attempt
  guesses : List Guess

inductive Action where
  | setUser (email : Text) (user : Option Account)
  /-- The script runs; its reply may be lost on the way back. -/
  | consume (call : Call) (ip email password : Text) (micros : Nat) (member : Text) (lost : Bool)
  /-- Redis does not run it. -/
  | unreachable (call : Call)
  | find (call : Call)
  | findFails (call : Call)
  /-- `equalizer` is what `argon2.hash` makes of the dummy password, if it is asked now. -/
  | verify (call : Call) (equalizer : Option Text)
  deriving DecidableEq

section Steps

variable (lib : Libraries) (state : State) (call : Call)

def State.init (users : Text → Option Account) : State where
  limiter := .init
  users := users
  timingEqualizer := none
  phases := fun _ => .idle
  attempts := []
  guesses := []

def State.goto (phase : Phase) : State :=
  { state with phases := Function.update state.phases call phase }

/-- What the controller does with the outcome of `throttle.consume`, where `none` is an
exception. -/
def afterThrottle (attempt : Attempt) : Option LimitResult → Phase
  | none => .refused throttleUnavailable
  | some result => if result.allowed then .finding attempt else .refused (tooMany result)

def consume (ip email password : Text) (micros : Nat) (member : Text) (lost : Bool) :
    Option State :=
  match state.phases call with
  | .idle =>
      let script : Ratelimit.Consume := ⟨lib.throttleId ip email, micros, member⟩
      let result := (Ratelimit.consume loginOptions state.limiter.redis script).2
      let attempt : Attempt :=
        ⟨call, ip, email, password, micros, member, result.any LimitResult.allowed, lost⟩
      (Ratelimit.step loginOptions state.limiter script).map fun limiter =>
        { (state.goto call (afterThrottle attempt (if lost then none else result))) with
          limiter := limiter
          attempts := state.attempts ++ [attempt] }
  | _ => none

def unreachable : Option State :=
  match state.phases call with
  | .idle => some (state.goto call (.refused throttleUnavailable))
  | _ => none

/-- `SELECT … WHERE u.email = :email`. -/
def find : Option State :=
  match state.phases call with
  | .finding attempt => some (state.goto call (.verifying attempt (state.users attempt.email)))
  | _ => none

def findFails : Option State :=
  match state.phases call with
  | .finding _ => some (state.goto call (.refused .threw))
  | _ => none

/-- What `login` makes of the user and of the outcome of `verifyPassword`. -/
def afterVerify (user : Option Account) : Option Bool → Phase
  | none => .refused .threw
  | some passwordOk =>
      match user, passwordOk with
      | some user, true => .authenticated user.id user.role
      | _, _ => .refused invalidCredentials

/-- The user has no hash to check against. -/
def lacksHash (user : Option Account) : Bool :=
  match user.bind Account.passwordHash with
  | none | some [] => true
  | some _ => false

def verify (equalizer : Option Text) : Option State :=
  match state.phases call with
  | .verifying attempt user =>
      let promise := state.timingEqualizer.getD equalizer
      let (passwordOk, runs) :=
        lib.verifyPassword promise (user.bind Account.passwordHash) attempt.password
      some
        { (state.goto call (afterVerify user passwordOk)) with
          timingEqualizer := if lacksHash user then some promise else state.timingEqualizer
          guesses := state.guesses ++ runs.map (Guess.mk attempt) }
  | _ => none

end Steps

def step (lib : Libraries) (state : State) : Action → Option State
  | .setUser email user => some { state with users := Function.update state.users email user }
  | .consume call ip email password micros member lost =>
      consume lib state call ip email password micros member lost
  | .unreachable call => unreachable state call
  | .find call => find state call
  | .findFails call => findFails state call
  | .verify call equalizer => verify lib state call equalizer

/-- `randomUUID` never repeats. -/
def FreshMember (state : State) : Action → Prop
  | .consume _ _ _ _ _ member _ => member ∉ state.limiter.answers.map Answer.member
  | _ => True

instance (state : State) (action : Action) : Decidable (FreshMember state action) :=
  match action with
  | .consume _ _ _ _ _ _ _ => inferInstanceAs (Decidable (_ ∉ _))
  | .setUser _ _ | .unreachable _ | .find _ | .findFails _ | .verify _ _ =>
      inferInstanceAs (Decidable True)

end Marketplace.Login
