import Marketplace.Lib.Base64
import Marketplace.Lib.Expiring
import Marketplace.Lib.JsonMembers
import Marketplace.Lib.Transition
import Marketplace.Numbers

/-!
# `SessionStore`

Sessions in Redis, and the calls of any number of instances. A call reads the clock when Redis
executes its first command, and Redis has the same clock.
-/

namespace Marketplace.Sessions

open Checkout (JsNumber)
open Expiring.Store

def sessionTtlSec : Nat := 1800
def sessionAbsoluteTtlSec : Nat := 86400

structure SessionStoreOptions where
  ttlSec : Nat := sessionTtlSec
  absoluteTtlSec : Nat := sessionAbsoluteTtlSec
  deriving DecidableEq

structure SessionData where
  createdAt : Nat
  values : Json
  deriving DecidableEq

def SessionData.toJson (data : SessionData) : Json :=
  .object [("createdAt".toList, .number (.ofNat data.createdAt)), ("values".toList, data.values)]

/-- `SID_PATTERN`: 43 characters of base64url. -/
def sidPattern (sid : Text) : Bool :=
  sid.length = 43 && sid.all fun char => char.isAlphanum || char = '_' || char = '-'

def sessionKey (sid : Text) : Text := ['s', 'e', 's', 's', ':'] ++ sid

abbrev Redis := Expiring.Store Text Text

section Calls

variable (options : SessionStoreOptions) (redis : Redis) (now : Nat)

/-- `Date.now() - data.createdAt > absoluteTtlSec * 1000`. No comparison with `NaN` is true. What
`create` stores is an object with a number; a stored `null` or another `createdAt` is not read here
as there. -/
def isPast (data : Json) : Bool :=
  match data.get "createdAt".toList with
  | some (.number literal) =>
      match readDecimal literal.val with
      | .integer createdAt => (now : Int) - createdAt > seconds options.absoluteTtlSec
      | .other _ => false
  | _ => false

def create (sid : Text) (values : Json) : Redis :=
  redis.set now (sessionKey sid) (Json.stringify (SessionData.toJson ⟨now, values⟩))
    (seconds options.ttlSec)

/-- What `get` returns, what its `GETEX` does, and whether a `DEL` is next. -/
def get (sid : Text) : Option Json × Redis × Bool :=
  if sidPattern sid then
    match redis.read now (sessionKey sid) with
    | none => (none, redis, false)
    | some raw =>
        let renewed := redis.refresh now (sessionKey sid) (seconds options.ttlSec)
        match Json.parse raw with
        | none => (none, renewed, true)
        | some data =>
            if isPast options now data then (none, renewed, true) else (some data, renewed, false)
  else (none, redis, false)

def destroy (sid : Text) : Redis := if sidPattern sid then redis.delete (sessionKey sid) else redis

end Calls

/-- What has been done, in the order in which Redis has done it. -/
inductive Event where
  | created (sid : Text) (time : Nat) (values : Json)
  | got (sid : Text) (time : Nat) (data : Option Json)
  | destroyed (sid : Text) (time : Nat)
  deriving DecidableEq

structure State where
  clock : Nat
  redis : Redis
  /-- The sessions that calls of `get` are about to delete. -/
  deleting : List Text
  history : List Event

def init : State := ⟨0, fun _ => none, [], []⟩

inductive Action where
  | tick (ms : Nat)
  /-- `bytes` are the ones of `randomBytes(32)`. -/
  | create (bytes : List Base64.Byte) (values : Json)
  | get (sid : Text)
  /-- The `DEL` of a call of `get`. -/
  | del (index : Nat)
  | destroy (sid : Text)

def step (options : SessionStoreOptions) (state : State) : Action → Option State
  | .tick ms => some { state with clock := state.clock + ms }
  | .create bytes values =>
      if bytes.length = 32 then
        let sid := Base64.encode bytes
        some { state with
          redis := create options state.redis state.clock sid values
          history := state.history ++ [.created sid state.clock values] }
      else none
  | .get sid =>
      let (data, redis, deletes) := get options state.redis state.clock sid
      some { state with
        redis := redis
        deleting := state.deleting ++ if deletes then [sid] else []
        history := state.history ++ [.got sid state.clock data] }
  | .del index =>
      (state.deleting[index]?).map fun sid =>
        { state with
          redis := state.redis.delete (sessionKey sid)
          deleting := state.deleting.eraseIdx index }
  | .destroy sid =>
      some { state with
        redis := destroy state.redis sid
        history := state.history ++ [.destroyed sid state.clock] }

def createdSids (history : List Event) : List Text :=
  history.filterMap fun
    | .created sid _ _ => some sid
    | _ => none

/-- Random ids never repeat. -/
def Unrepeated (state : State) : Action → Prop
  | .create bytes _ => Base64.encode bytes ∉ createdSids state.history
  | _ => True

instance (state : State) (action : Action) : Decidable (Unrepeated state action) :=
  match action with
  | .create bytes _ => inferInstanceAs (Decidable (Base64.encode bytes ∉ createdSids state.history))
  | .tick _ | .get _ | .del _ | .destroy _ => inferInstanceAs (Decidable True)

/-! ### Ids and keys -/

theorem sessionKey_injective : Function.Injective sessionKey :=
  fun _ _ heq => List.append_cancel_left heq

theorem sidPattern_encode {bytes : List Base64.Byte} (hlength : bytes.length = 32) :
    sidPattern (Base64.encode bytes) = true := by
  have halphabet : ∀ sextet, ((Base64.alphabet sextet).isAlphanum || Base64.alphabet sextet = '_' ||
      Base64.alphabet sextet = '-') = true := by
    decide +kernel
  have hall : (Base64.encode bytes).all
      (fun char => char.isAlphanum || char = '_' || char = '-') = true := by
    rw [Base64.encode, List.all_map, List.all_eq_true]
    exact fun sextet _ => halphabet sextet
  rw [sidPattern, hall, Base64.length_encode, hlength]
  rfl

/-! ### The limit on the age -/

theorem isPast_toJson (options : SessionStoreOptions) (now : Nat) (data : SessionData) :
    isPast options now data.toJson =
      decide (data.createdAt + seconds options.absoluteTtlSec < now) := by
  have hget : data.toJson.get "createdAt".toList = some (.number (.ofNat data.createdAt)) := by
    apply Json.get_of_mem
    · change ["createdAt".toList, "values".toList].Nodup
      decide
    · exact List.mem_cons_self
  have hread : readDecimal (JsonNumber.ofNat data.createdAt).val = .integer data.createdAt :=
    readDecimal_decimal data.createdAt
  rw [isPast, hget]
  dsimp only
  rw [hread]
  dsimp only
  rw [decide_eq_decide]
  omega

variable {options : SessionStoreOptions} {redis : Redis} {now : Nat} {sid : Text}

theorem get_of_none (hread : redis.read now (sessionKey sid) = none) :
    get options redis now sid = (none, redis, false) := by
  rw [get, hread]
  split <;> rfl

/-- What `get` makes of a session that Redis still has. -/
theorem get_of_read {data : SessionData} (hpattern : sidPattern sid = true)
    (hread : redis.read now (sessionKey sid) = some (Json.stringify data.toJson)) :
    get options redis now sid =
      (if data.createdAt + seconds options.absoluteTtlSec < now then none else some data.toJson,
        redis.set now (sessionKey sid) (Json.stringify data.toJson) (seconds options.ttlSec),
        decide (data.createdAt + seconds options.absoluteTtlSec < now)) := by
  rw [get, if_pos hpattern, hread]
  dsimp only
  rw [Json.parse_stringify, refresh_of_read hread]
  dsimp only
  rw [isPast_toJson]
  by_cases hpast : data.createdAt + seconds options.absoluteTtlSec < now <;> simp [hpast]

/-- `get` is about no other key. -/
theorem get_of_ne {key : Text} (hne : key ≠ sessionKey sid) :
    (get options redis now sid).2.1 key = redis key := by
  have hrefresh : redis.refresh now (sessionKey sid) (seconds options.ttlSec) key = redis key :=
    refresh_of_ne hne now _
  unfold get
  split
  · split
    · rfl
    · dsimp only
      split
      · exact hrefresh
      · split <;> exact hrefresh
  · rfl

theorem step_get (options : SessionStoreOptions) (state : State) (sid : Text) :
    step options state (.get sid) = some { state with
      redis := (get options state.redis state.clock sid).2.1
      deleting := state.deleting ++ if (get options state.redis state.clock sid).2.2 then
        [sid] else []
      history := state.history ++
        [.got sid state.clock (get options state.redis state.clock sid).1] } := rfl

end Marketplace.Sessions
