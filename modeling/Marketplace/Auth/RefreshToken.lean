import Marketplace.Auth.Constants
import Marketplace.Basic
import Marketplace.Lib.ReadCommitted
import Marketplace.Lib.Transition

/-!
# `RefreshTokenService`, statement by statement

`issue`, `rotate` and `revokeFamily` on the table `refresh_tokens`. Every SQL statement is a step of
its own, a wait for a row lock is a step that is not enabled yet, and any open transaction may abort
at any point. Rows are keyed by `token_hash`, which is unique; the surrogate `id` that the later
statements of `rotate` use selects the row the SELECT returned, so it is the same key.

The token digest (HMAC-SHA256 under the pepper) is a parameter.
-/

namespace Marketplace.RefreshToken

open ReadCommitted Transition

abbrev FamilyId := Nat

/-- A refresh token is the text the client sends. -/
abbrev Token := List Char

/-- `TOKEN_PATTERN`: 43 characters of base64url. -/
def tokenPattern (token : Token) : Bool :=
  token.length = 43 && token.all fun char => char.isAlphanum || char = '_' || char = '-'

structure Owner where
  userId : UserId
  familyId : FamilyId
  deriving DecidableEq

inductive RejectReason where
  | unknown
  | revoked
  | reused
  | expired
  deriving DecidableEq

inductive RotationResult where
  | rotated (owner : Owner) (token : Token)
  | rejected (reason : RejectReason) (owner : Option Owner) (revokedRows : Option Nat)
  deriving DecidableEq

def RotationResult.isRotated : RotationResult → Bool
  | rotated _ _ => true
  | rejected _ _ _ => false

/-- A row of `refresh_tokens`, its key left out. -/
structure TokenRow where
  userId : UserId
  familyId : FamilyId
  createdAt : Nat
  usedAt : Option Nat
  revokedAt : Option Nat
  expiresAt : Nat
  familyStartedAt : Nat
  deriving DecidableEq

namespace TokenRow

def owner (row : TokenRow) : Owner := ⟨row.userId, row.familyId⟩

/-- The column `expired` of the SELECT: `expires_at <= now()`. -/
def expired (row : TokenRow) (now : Nat) : Bool := row.expiresAt ≤ now

/-- The row `issue` inserts. -/
def issued (userId : UserId) (familyId : FamilyId) (now : Nat) : TokenRow where
  userId := userId
  familyId := familyId
  createdAt := now
  usedAt := none
  revokedAt := none
  expiresAt := now + seconds refreshTtlSec
  familyStartedAt := now

/-- `UPDATE refresh_tokens SET used_at = now()`. -/
def use (row : TokenRow) (now : Nat) : TokenRow := { row with usedAt := some now }

/-- `UPDATE refresh_tokens SET revoked_at = now()`. -/
def revoke (row : TokenRow) (now : Nat) : TokenRow := { row with revokedAt := some now }

/-- The row `rotate` inserts from the one it has used. -/
def successor (row : TokenRow) (now : Nat) : TokenRow where
  userId := row.userId
  familyId := row.familyId
  createdAt := now
  usedAt := none
  revokedAt := none
  expiresAt := min (now + seconds refreshTtlSec)
    (row.familyStartedAt + seconds refreshAbsoluteTtlSec)
  familyStartedAt := row.familyStartedAt

end TokenRow

/-- Where a call is. `now` is the time its transaction began, which is what `now()` returns in every
statement of it. -/
inductive Phase (Hash : Type) where
  | idle
  | issued (token : Token) (familyId : FamilyId)
  /-- `BEGIN` is done, the SELECT is next. -/
  | began (token : Token) (now : Nat)
  /-- The snapshot of the SELECT holds the row; it waits for the row lock. -/
  | selecting (token : Token) (now : Nat)
  /-- The callback returned a rejection without writing; `COMMIT` is next. -/
  | rejecting (token : Token) (reason : RejectReason) (owner : Option Owner)
  /-- The row is used: `revokeFamily` is next. -/
  | reusing (token : Token) (now : Nat) (owner : Owner)
  /-- The UPDATE of `revokeFamily` is running, or done when `todo` is empty. `snapshot` are the rows
  of the family it saw at its start. `caller` is the rotation it belongs to, if there is one. -/
  | updating (familyId : FamilyId) (now : Nat) (caller : Option (Token × Owner))
      (snapshot todo : List Hash) (affected : Nat)
  /-- The row is live: marking it used is next. -/
  | rotating (token : Token) (now : Nat) (owner : Owner)
  /-- Marked used: inserting the next row is next. -/
  | inserting (token : Token) (now : Nat) (owner : Owner)
  /-- Both writes are done, `COMMIT` is next. -/
  | inserted (token next : Token) (now : Nat) (owner : Owner)
  | answered (token : Token) (result : RotationResult)
  | revoked (familyId : FamilyId) (affected : Nat)
  | threw
  deriving DecidableEq

/-- A transaction is open. -/
def Phase.isOpen {Hash : Type} : Phase Hash → Bool
  | .began _ _ | .selecting _ _ | .rejecting _ _ _ | .reusing _ _ _ | .updating _ _ _ _ _ _
  | .rotating _ _ _ | .inserting _ _ _ | .inserted _ _ _ _ => true
  | .idle | .issued _ _ | .answered _ _ | .revoked _ _ | .threw => false

/-- The database and the calls. The last three fields are history: the family ids in use, what the
committed rotations returned, and the families on which a `revokeFamily` has committed. -/
structure State (Hash : Type) where
  clock : Nat
  rows : Table Call Hash TokenRow
  calls : Call → Phase Hash
  families : List FamilyId
  returned : List (Token × RotationResult)
  revokedFamilies : List FamilyId

inductive Action (Hash : Type) where
  | tick (elapsed : Nat)
  | issue (call : Call) (userId : UserId) (familyId : FamilyId) (token : Token)
  | rotate (call : Call) (token : Token)
  | select (call : Call)
  | lock (call : Call)
  | markUsed (call : Call)
  | insert (call : Call) (next : Token)
  | startRevoke (call : Call)
  | revokeFamily (call : Call) (familyId : FamilyId)
  | visit (call : Call) (key : Hash)
  | commit (call : Call)
  | abort (call : Call)

/-- The call that takes the step, if it is not the clock. -/
def Action.caller {Hash : Type} : Action Hash → Option Call
  | .tick _ => none
  | .issue call _ _ _ | .rotate call _ | .select call | .lock call | .markUsed call | .insert call _
  | .startRevoke call | .revokeFamily call _ | .visit call _ | .commit call | .abort call =>
      some call

section Statements

variable {Hash : Type} [DecidableEq Hash] (hash : Token → Hash) (state : State Hash) (call : Call)

def State.init : State Hash where
  clock := 0
  rows := Table.empty
  calls := fun _ => .idle
  families := []
  returned := []
  revokedFamilies := []

def State.goto (phase : Phase Hash) : State Hash :=
  { state with calls := Function.update state.calls call phase }

/-- `issue` is one INSERT in autocommit. The family id is a fresh random UUID. -/
def issue (userId : UserId) (familyId : FamilyId) (token : Token) : Option (State Hash) :=
  if state.calls call = .idle ∧ familyId ∉ state.families ∧
      state.rows.cell (hash token) = Cell.absent then
    some { (state.goto call (.issued token familyId)) with
      rows := (state.rows.put call (hash token)
        (some (TokenRow.issued userId familyId state.clock))).commit call
      families := familyId :: state.families }
  else none

/-- The shape of the token is checked before the database is asked. -/
def rotate (token : Token) : Option (State Hash) :=
  match state.calls call with
  | .idle =>
      if tokenPattern token then some (state.goto call (.began token state.clock))
      else some (state.goto call (.answered token (.rejected .unknown none none)))
  | _ => none

/-- The snapshot of `SELECT … WHERE token_hash = $1 FOR UPDATE`. -/
def select : Option (State Hash) :=
  match state.calls call with
  | .began token now =>
      if (state.rows.view call (hash token)).isSome then
        some (state.goto call (.selecting token now))
      else some (state.goto call (.rejecting token .unknown none))
  | _ => none

/-- What `rotate` decides on the row it has locked. The order of the tests is the order in the
code. -/
def decide (token : Token) (now : Nat) (row : TokenRow) : Phase Hash :=
  if row.revokedAt.isSome then .rejecting token .revoked (some row.owner)
  else if row.usedAt.isSome then .reusing token now row.owner
  else if row.expired now then .rejecting token .expired (some row.owner)
  else .rotating token now row.owner

/-- The SELECT gets the row lock and returns the version that is current then. -/
def lock : Option (State Hash) :=
  match state.calls call with
  | .selecting token now =>
      if state.rows.lockable call (hash token) then
        match state.rows.view call (hash token) with
        | some row =>
            some { (state.goto call (decide token now row)) with
              rows := state.rows.put call (hash token) (some row) }
        | none => none
      else none
  | _ => none

def markUsed : Option (State Hash) :=
  match state.calls call with
  | .rotating token now owner =>
      match state.rows.view call (hash token) with
      | some row =>
          some { (state.goto call (.inserting token now owner)) with
            rows := state.rows.put call (hash token) (some (row.use now)) }
      | none => none
  | _ => none

/-- `INSERT … SELECT` from the row just used. A `token_hash` that is in use would violate the unique
constraint; fresh random tokens never repeat. -/
def insert (next : Token) : Option (State Hash) :=
  match state.calls call with
  | .inserting token now owner =>
      match state.rows.view call (hash token) with
      | some row =>
          if state.rows.cell (hash next) = Cell.absent then
            some { (state.goto call (.inserted token next now owner)) with
              rows := state.rows.put call (hash next) (some (row.successor now)) }
          else none
      | none => none
  | _ => none

/-- `family_id = $1 AND revoked_at IS NULL`. -/
def revocable (familyId : FamilyId) (row : TokenRow) : Bool :=
  row.familyId = familyId && row.revokedAt.isNone

/-- The UPDATE of `revokeFamily` takes its snapshot. -/
def startUpdate (familyId : FamilyId) (now : Nat) (caller : Option (Token × Owner)) : Phase Hash :=
  .updating familyId now caller
    (state.rows.scan call fun _ row => row.familyId = familyId)
    (state.rows.scan call fun _ row => revocable familyId row) 0

def startRevoke : Option (State Hash) :=
  match state.calls call with
  | .reusing token now owner =>
      some (state.goto call (startUpdate state call owner.familyId now (some (token, owner))))
  | _ => none

/-- `revokeFamily` called by `logout`: the same statement in autocommit. A family id that was named
once is never drawn again. -/
def revokeFamily (familyId : FamilyId) : Option (State Hash) :=
  match state.calls call with
  | .idle =>
      some { (state.goto call (startUpdate state call familyId state.clock none)) with
        families := familyId :: state.families }
  | _ => none

/-- The UPDATE reaches one row of its snapshot. -/
def visit (key : Hash) : Option (State Hash) :=
  match state.calls call with
  | .updating familyId now caller snapshot todo affected =>
      if key ∈ todo then
        match state.rows.visit call key (revocable familyId) (·.revoke now) with
        | some (rows, hit) =>
            some { (state.goto call (.updating familyId now caller snapshot
                (todo.filter (· ≠ key)) (if hit then affected + 1 else affected))) with
              rows := rows }
        | none => none
      else none
  | _ => none

/-- `COMMIT`, and the value the call returns after it. -/
def commit : Option (State Hash) :=
  match state.calls call with
  | .rejecting token reason owner =>
      let result := RotationResult.rejected reason owner none
      some { (state.goto call (.answered token result)) with
        rows := state.rows.commit call
        returned := state.returned ++ [(token, result)] }
  | .inserted token next _ owner =>
      let result := RotationResult.rotated owner next
      some { (state.goto call (.answered token result)) with
        rows := state.rows.commit call
        returned := state.returned ++ [(token, result)] }
  | .updating familyId _ (some (token, owner)) _ [] affected =>
      let result := RotationResult.rejected .reused (some owner) (some affected)
      some { (state.goto call (.answered token result)) with
        rows := state.rows.commit call
        returned := state.returned ++ [(token, result)]
        revokedFamilies := familyId :: state.revokedFamilies }
  | .updating familyId _ none _ [] affected =>
      some { (state.goto call (.revoked familyId affected)) with
        rows := state.rows.commit call
        revokedFamilies := familyId :: state.revokedFamilies }
  | _ => none

/-- A statement or the COMMIT fails: everything the transaction wrote is undone and the call
throws. -/
def abort : Option (State Hash) :=
  if (state.calls call).isOpen then
    some { (state.goto call .threw) with rows := state.rows.rollback call }
  else none

end Statements

def step {Hash : Type} [DecidableEq Hash] (hash : Token → Hash) (state : State Hash) :
    Action Hash → Option (State Hash)
  | .tick elapsed => some { state with clock := state.clock + elapsed }
  | .issue call userId familyId token => issue hash state call userId familyId token
  | .rotate call token => rotate state call token
  | .select call => select hash state call
  | .lock call => lock hash state call
  | .markUsed call => markUsed hash state call
  | .insert call next => insert hash state call next
  | .startRevoke call => startRevoke state call
  | .revokeFamily call familyId => revokeFamily state call familyId
  | .visit call key => visit state call key
  | .commit call => commit state call
  | .abort call => abort state call

end Marketplace.RefreshToken
