import Marketplace.Auth.AuthService
import Marketplace.Lib.JsText
import Marketplace.Ratelimit.SlidingWindowLimiter

/-!
# The guards of the HTTP interface

The routes with their decorators, and the guards that run before a handler: `AuthGuard` and
`RolesGuard` on every route, `RateLimitGuard` where it is asked for. A guard may wait for Redis or
for the database, and what it waits for goes on changing under it.
-/

namespace Marketplace.Http

open RefreshToken (FamilyId Token)
open Ratelimit (LimitResult)
open Transition

/-! ### Routes and decorators -/

inductive Controller where
  | auth
  | products
  | orders
  | health
  deriving DecidableEq

/-- The handlers, by the names of their operations. -/
inductive Route where
  | login
  | refreshTokens
  | logout
  | listProducts
  | createProduct
  | getProduct
  | getProductCard
  | listOrders
  | getOrder
  | createOrder
  | updateOrderStatus
  | streamOrderEvents
  | getHealth
  deriving DecidableEq

def Route.controller : Route → Controller
  | .login | .refreshTokens | .logout => .auth
  | .listProducts | .createProduct | .getProduct | .getProductCard => .products
  | .listOrders | .getOrder | .createOrder | .updateOrderStatus | .streamOrderEvents => .orders
  | .getHealth => .health

/-- What `@Public()` and `@Roles(...)` have set. -/
structure Metadata where
  isPublic : Option Bool
  requiredRoles : Option (List UserRole)

def Metadata.none : Metadata := ⟨.none, .none⟩

def Metadata.public : Metadata := ⟨some true, .none⟩

def Metadata.roles (roles : List UserRole) : Metadata := ⟨.none, some roles⟩

def Controller.metadata : Controller → Metadata
  | .health => .public
  | .auth | .products | .orders => .none

def Route.metadata : Route → Metadata
  | .login | .refreshTokens | .listProducts | .getProduct | .getProductCard => .public
  | .createProduct | .updateOrderStatus => .roles [.seller, .admin]
  | .logout | .listOrders | .getOrder | .createOrder | .streamOrderEvents | .getHealth => .none

/-- `Reflector.getAllAndOverride`: what the handler says, or else what its class says. -/
def getAllAndOverride {α : Type} (field : Metadata → Option α) (route : Route) : Option α :=
  (field route.metadata).or (field route.controller.metadata)

def Route.isPublic (route : Route) : Bool := (getAllAndOverride Metadata.isPublic route).getD false

def Route.requiredRoles (route : Route) : List UserRole :=
  (getAllAndOverride Metadata.requiredRoles route).getD []

/-- `@UseGuards(RateLimitGuard)`. -/
def Route.rateLimited (route : Route) : Bool := route = .createOrder

/-- Its handler asks for `@CurrentUser()`, which throws where there is none. -/
def Route.asksCurrentUser : Route → Bool
  | .logout | .listOrders | .getOrder | .createOrder | .streamOrderEvents => true
  | .login | .refreshTokens | .listProducts | .createProduct | .getProduct | .getProductCard
  | .updateOrderStatus | .getHealth => false

/-- `/^Bearer\s+(\S+)$/i`: the group. -/
def bearerPattern (header : Text) : Option Text :=
  let rest := header.drop 6
  let token := rest.dropWhile JsText.isSpace
  if (header.take 6).map Char.toLower = ['b', 'e', 'a', 'r', 'e', 'r'] ∧
    token.length < rest.length ∧
      token ≠ [] ∧ token.all (fun char => !JsText.isSpace char) = true then some token
  else none

example : bearerPattern "bearer  a.b.c".toList = some "a.b.c".toList := by decide

/-! ### Requests -/

structure Request where
  route : Route
  authorization : Option Text
  deriving DecidableEq

/-- `request.user`, with the times at which the token was verified and looked up in the denylist. -/
structure Identity where
  principal : AccessPrincipal
  verifiedAt : Nat
  checkedAt : Nat
  deriving DecidableEq

/-- An answer without a body of the handler, and its headers. -/
structure Refusal where
  error : HttpError
  wwwAuthenticate : Bool
  retryAfter : Option Int
  deriving DecidableEq

/-- `AuthGuard.unauthorized`. -/
def Refusal.unauthorized (detail : String) : Refusal := ⟨⟨401, detail⟩, true, none⟩

def Refusal.plain (status : Nat) (detail : String) : Refusal := ⟨⟨status, detail⟩, false, none⟩

inductive Phase where
  | idle
  /-- `AuthGuard` waits for `denylist.isDenied`. -/
  | checking (request : Request) (principal : AccessPrincipal) (verifiedAt : Nat)
  /-- `RolesGuard` is next. -/
  | authenticated (request : Request) (user : Option Identity)
  /-- `RateLimitGuard` or the handler is next. -/
  | authorized (request : Request) (user : Option Identity) (role : Option UserRole)
  | limited (request : Request) (user : Option Identity) (role : Option UserRole)
  | handled
  | refused (refusal : Refusal)
  deriving DecidableEq

/-- A handler that was called, and the role that `RolesGuard` has read for it. -/
structure Handled where
  call : Call
  request : Request
  user : Option Identity
  role : Option UserRole
  deriving DecidableEq

structure State (Hash : Type) where
  auth : AuthService.State Hash
  /-- `users.role`. -/
  roles : UserId → Option UserRole
  phases : Call → Phase
  handled : List Handled

inductive Action (Hash : Type) where
  /-- Any step of a login, a refresh or a logout, and the clock. -/
  | auth (inner : AuthService.Action Hash)
  | setRole (userId : UserId) (role : Option UserRole)
  | arrive (call : Call) (request : Request)
  | isDenied (call : Call)
  | denylistFails (call : Call)
  | readRole (call : Call)
  | readRoleFails (call : Call) (message : String)
  /-- `RateLimitGuard` with the outcome of `limiter.consume`; `none` is a server without Redis. -/
  | consume (call : Call) (result : Option LimitResult)
  | handle (call : Call)

section Steps

variable {Hash : Type} (readToken : Text → Option AccessToken) (state : State Hash) (call : Call)

def State.init (roles : UserId → Option UserRole) : State Hash where
  auth := AuthService.State.init
  roles := roles
  phases := fun _ => .idle
  handled := []

def State.clock : Nat := state.auth.tokens.clock

def State.goto (phase : Phase) : State Hash :=
  { state with phases := Function.update state.phases call phase }

@[simp]
theorem State.phases_goto_self (phase : Phase) : (state.goto call phase).phases call = phase :=
  Function.update_self _ _ _

theorem State.phases_goto_of_ne {other : Call} (hne : other ≠ call) (phase : Phase) :
    (state.goto call phase).phases other = state.phases other :=
  Function.update_of_ne hne _ _

/-- `AuthGuard` up to its `await`. `readToken` is what the signature and the claims of a token
tell. -/
def beginAuth (request : Request) (now : Nat) : Phase :=
  if request.route.isPublic then .authenticated request none
  else
    match bearerPattern (request.authorization.getD []) with
    | none => .refused (.unauthorized "Потрібен заголовок Authorization: Bearer <access-токен>")
    | some text =>
        match (readToken text).bind (verifyAccess now) with
        | none => .refused (.unauthorized "Access-токен недійсний або прострочений")
        | some principal => .checking request principal now

def arrive (request : Request) : Option (State Hash) :=
  match state.phases call with
  | .idle => some (state.goto call (beginAuth readToken request state.clock))
  | _ => none

def isDenied : Option (State Hash) :=
  match state.phases call with
  | .checking request principal verifiedAt =>
      some (state.goto call
        (if state.auth.denylist.isDenied principal.jti principal.familyId state.clock then
          .refused (.unauthorized "Access-токен відкликано")
        else .authenticated request (some ⟨principal, verifiedAt, state.clock⟩)))
  | _ => none

def denylistFails : Option (State Hash) :=
  match state.phases call with
  | .checking _ _ _ =>
      some (state.goto call
        (.refused (.plain 503 "Не вдалося перевірити відкликання токена, спробуйте пізніше")))
  | _ => none

def roleName : UserRole → String
  | .customer => "customer"
  | .seller => "seller"
  | .admin => "admin"

/-- `RolesGuard`: the role is the one that the database has now, not the one in the token. -/
def checkRoles (required : List UserRole) (request : Request) (user : Option Identity) : Phase :=
  if required = [] then .authorized request user none
  else
    match user with
    | none => .refused (.plain 401 "Потрібна автентифікація")
    | some identity =>
        match state.roles identity.principal.userId with
        | none => .refused (.plain 401 "Обліковий запис більше не існує")
        | some role =>
            if role ∈ required then .authorized request user (some role)
            else
              .refused (.plain 403 ("Недостатньо прав: потрібна роль " ++
                " або ".intercalate (required.map roleName)))

def readRole : Option (State Hash) :=
  match state.phases call with
  | .authenticated request user =>
      some (state.goto call (checkRoles state request.route.requiredRoles request user))
  | _ => none

/-- An error of the database; the filter answers with its message. -/
def readRoleFails (message : String) : Option (State Hash) :=
  match state.phases call with
  | .authenticated request (some _) =>
      if request.route.requiredRoles = [] then none
      else some (state.goto call (.refused (.plain 500 message)))
  | _ => none

def consume (result : Option LimitResult) : Option (State Hash) :=
  match state.phases call with
  | .authorized request user role =>
      if request.route.rateLimited then
        match result with
        | none => some (state.goto call (.limited request user role))
        | some result =>
            if result.allowed then some (state.goto call (.limited request user role))
            else
              some (state.goto call
                (.refused ⟨⟨429, "Too Many Requests"⟩, false, some result.retryAfterSec⟩))
      else none
  | _ => none

/-- The handler is called, with the user that `@CurrentUser()` hands over. -/
def runHandler (request : Request) (user : Option Identity) (role : Option UserRole) : State Hash :=
  if request.route.asksCurrentUser ∧ user = none then
    state.goto call
      (.refused (.plain 500 "CurrentUser використано на маршруті без AuthGuard"))
  else
    { (state.goto call .handled) with handled := state.handled ++ [⟨call, request, user, role⟩] }

def handle : Option (State Hash) :=
  match state.phases call with
  | .authorized request user role =>
      if request.route.rateLimited then none else some (runHandler state call request user role)
  | .limited request user role => some (runHandler state call request user role)
  | _ => none

end Steps

def step {Hash : Type} [DecidableEq Hash] (hash : Token → Hash)
    (readToken : Text → Option AccessToken) (state : State Hash) : Action Hash → Option (State Hash)
  | .auth inner =>
      (AuthService.step hash state.auth inner).map fun auth => { state with auth := auth }
  | .setRole userId role =>
      some { state with roles := Function.update state.roles userId role }
  | .arrive call request => arrive readToken state call request
  | .isDenied call => isDenied state call
  | .denylistFails call => denylistFails state call
  | .readRole call => readRole state call
  | .readRoleFails call message => readRoleFails state call message
  | .consume call result => consume state call result
  | .handle call => handle state call

/-- Only the service can sign: a text that passes for a token is one that it has signed. -/
def Unforged {Hash : Type} (readToken : Text → Option AccessToken) (state : State Hash) :
    Action Hash → Prop
  | .arrive _ request => ((bearerPattern (request.authorization.getD [])).bind readToken).all
      (fun token => token ∈ state.auth.signed) = true
  | _ => True

instance {Hash : Type} (readToken : Text → Option AccessToken) (state : State Hash)
    (action : Action Hash) : Decidable (Unforged readToken state action) :=
  match action with
  | .arrive _ _ => inferInstanceAs (Decidable (_ = true))
  | .auth _ | .setRole _ _ | .isDenied _ | .denylistFails _ | .readRole _ | .readRoleFails _ _
  | .consume _ _ | .handle _ => inferInstanceAs (Decidable True)

end Marketplace.Http
