import Marketplace.Lib.Json
import Marketplace.Lib.Transition
import Marketplace.Shop.Shop

/-!
# `ProductCardService.getCard`

One call, from one answer to the next: what it asks for, and how it goes on when it gets it. Nothing
is said here about where the answers come from. A value is taken as the JSON it is sent as.
-/

namespace Marketplace.Cards

open Checkout (JsNumber)
open Shop (ProductCard cardKey)

/-- What `randomUUID()` gives. -/
abbrev Token := Text

def cardLockKey (productId : ProductId) : Text :=
  ['l', 'o', 'c', 'k', ':', 'p', 'r', 'o', 'd', 'u', 'c', 't', ':', 'c', 'a', 'r', 'd', ':'] ++
    decimal productId

def cardTtlBaseSec : Nat := 300
def cardTtlSpreadSec : Nat := 60
def negativeTtlSec : Nat := 30
def lockTtlMs : Nat := 5000
def lockWaitBudgetMs : Nat := 2000
def lockPollMs : Nat := 25

instance (priority := high) spreadNeZero : NeZero (cardTtlSpreadSec + 1) := ⟨by decide⟩

/-- `draw` is `Math.floor(Math.random() * (spreadSec + 1))`. -/
def jitteredTtl (draw : Fin (cardTtlSpreadSec + 1)) : Nat := cardTtlBaseSec + draw

/-! ### Values -/

theorem isNumber_decimal (value : Int) : JsonNumber.isNumber (decimal value) = true := by
  cases value with
  | ofNat value => exact JsonNumber.isNumber_toDigits value
  | negSucc value => exact JsonNumber.isNumber_neg_toDigits (value + 1)

def ofInt (value : Int) : Json := .number ⟨decimal value, isNumber_decimal value⟩

/-- `JSON.stringify` writes `null` for what is no number of JSON. -/
def ofNumber : JsNumber → Json
  | .integer value => ofInt value
  | .other text =>
      if hnumber : JsonNumber.isNumber text = true then .number ⟨text, hnumber⟩ else .null

/-- The value of `getCard`: a card, or `null`. -/
def ofCard : Option ProductCard → Json
  | none => .null
  | some card => .object [
      ("id".toList, .string card.id),
      ("name".toList, .string card.name.toList),
      ("priceCents".toList, ofInt card.priceCents),
      ("currency".toList, .string card.currency.toList),
      ("stock".toList, ofInt card.stock),
      ("unitsSold".toList, ofInt card.unitsSold),
      ("revenueCents".toList, ofNumber card.revenueCents),
      ("ordersCount".toList, ofInt card.ordersCount)]

/-! ### The call -/

structure ProductCardOptions where
  /-- Neither `cache` nor `lock` is null. -/
  cached : Bool
  singleFlight : Bool
  deriving DecidableEq

inductive Outcome where
  | returned (value : Json)
  | threw
  deriving DecidableEq

/-- What the call waits for. A token is there while the lock is taken to be its own. -/
inductive Phase where
  /-- Without a cache: `loadCard` is all there is. -/
  | direct
  | looking
  | missed
  | checking (deadline : Nat)
  | acquiring (deadline : Nat) (token : Token)
  | rechecking (token : Token)
  | sleeping (deadline : Nat)
  | polling (deadline : Nat)
  | loading (token : Option Token)
  | storing (token : Option Token) (fresh : Option ProductCard) (ttlSec : Nat)
  | releasing (token : Token) (outcome : Outcome)
  | finished (outcome : Outcome)
  deriving DecidableEq

inductive Request where
  | get (key : Text)
  /-- `Date.now()`. -/
  | now
  | setNx (name : Text) (token : Token) (ttlMs : Nat)
  | sleep (ms : Nat)
  | loadCard (productId : ProductId)
  | set (key raw : Text) (ttlSec : Nat)
  | release (name : Text) (token : Token)
  deriving DecidableEq

inductive Answer where
  /-- To `get`: the command fails, or there is no such key, or its text. -/
  | text (reply : Option (Option Text))
  | time (now : Nat)
  /-- To `setNx`: the command fails, or is there a lock already, or `OK`. -/
  | locked (reply : Option Bool)
  /-- To `loadCard`: the query fails, or its result. -/
  | card (reply : Option (Option ProductCard))
  /-- The end of a sleep, and of a command whose failure makes no difference. -/
  | done
  deriving DecidableEq

/-- What the code draws as it goes on. -/
structure Draws where
  token : Token
  jitter : Fin (cardTtlSpreadSec + 1)
  deriving DecidableEq

/-- `RedisCache.get`: whatever fails is a miss. -/
def lookup : Option (Option Text) → Option Json
  | some (some raw) => Json.parse raw
  | _ => none

/-- The end of `loadAndStore`; under the lock the `finally` is next. -/
def finish : Option Token → Outcome → Phase
  | some token, outcome => .releasing token outcome
  | none, outcome => .finished outcome

def ttlSec (draws : Draws) : Option ProductCard → Nat
  | some _ => jitteredTtl draws.jitter
  | none => negativeTtlSec

section Call

variable (options : ProductCardOptions) (productId : ProductId)

def Phase.request : Phase → Option Request
  | .looking | .rechecking _ | .polling _ => some (.get (cardKey productId))
  | .missed | .checking _ => some .now
  | .acquiring _ token => some (.setNx (cardLockKey productId) token lockTtlMs)
  | .sleeping _ => some (.sleep lockPollMs)
  | .direct | .loading _ => some (.loadCard productId)
  | .storing _ fresh ttlSec =>
      some (.set (cardKey productId) (Json.stringify (ofCard fresh)) ttlSec)
  | .releasing token _ => some (.release (cardLockKey productId) token)
  | .finished _ => none

def start : Phase := if options.cached then .looking else .direct

def resume (draws : Draws) : Phase → Answer → Option Phase
  | .direct, .card none => some (.finished .threw)
  | .direct, .card (some fresh) => some (.finished (.returned (ofCard fresh)))
  | .looking, .text reply =>
      match lookup reply with
      | some value => some (.finished (.returned value))
      | none => some (if options.singleFlight then .missed else .loading none)
  | .missed, .time now => some (.checking (now + lockWaitBudgetMs))
  | .checking deadline, .time now =>
      some (if now < deadline then .acquiring deadline draws.token else .loading none)
  | .acquiring _ _, .locked none => some (.loading none)
  | .acquiring _ token, .locked (some true) => some (.rechecking token)
  | .acquiring deadline _, .locked (some false) => some (.sleeping deadline)
  | .rechecking token, .text reply =>
      match lookup reply with
      | some value => some (.releasing token (.returned value))
      | none => some (.loading (some token))
  | .sleeping deadline, .done => some (.polling deadline)
  | .polling deadline, .text reply =>
      match lookup reply with
      | some value => some (.finished (.returned value))
      | none => some (.checking deadline)
  | .loading token, .card none => some (finish token .threw)
  | .loading token, .card (some fresh) => some (.storing token fresh (ttlSec draws fresh))
  | .storing token fresh _, .done => some (finish token (.returned (ofCard fresh)))
  | .releasing _ outcome, .done => some (.finished outcome)
  | _, _ => none

end Call

/-- The answer is one to the request. -/
def Fits : Request → Answer → Prop
  | .get _, .text _ | .now, .time _ | .setNx _ _ _, .locked _ | .loadCard _, .card _ => True
  | .sleep _, .done | .set _ _ _, .done | .release _ _, .done => True
  | _, _ => False

variable {options : ProductCardOptions} {productId : ProductId} {draws : Draws} {phase next : Phase}
  {answer : Answer}

/-- `resume` as a relation, one case for each way to go on. -/
inductive Resumes (options : ProductCardOptions) (draws : Draws) : Phase → Answer → Phase → Prop
  | directFailed : Resumes options draws .direct (.card none) (.finished .threw)
  | directLoaded (fresh : Option ProductCard) :
      Resumes options draws .direct (.card (some fresh)) (.finished (.returned (ofCard fresh)))
  | hit {reply : Option (Option Text)} {value : Json} (hlookup : lookup reply = some value) :
      Resumes options draws .looking (.text reply) (.finished (.returned value))
  | miss {reply : Option (Option Text)} (hlookup : lookup reply = none)
      (hflight : options.singleFlight = true) : Resumes options draws .looking (.text reply) .missed
  | missAlone {reply : Option (Option Text)} (hlookup : lookup reply = none)
      (hflight : options.singleFlight = false) :
      Resumes options draws .looking (.text reply) (.loading none)
  | begin (now : Nat) :
      Resumes options draws .missed (.time now) (.checking (now + lockWaitBudgetMs))
  | turn {deadline now : Nat} (hnow : now < deadline) :
      Resumes options draws (.checking deadline) (.time now) (.acquiring deadline draws.token)
  | spent {deadline now : Nat} (hnow : ¬ now < deadline) :
      Resumes options draws (.checking deadline) (.time now) (.loading none)
  | lockFailed (deadline : Nat) (token : Token) :
      Resumes options draws (.acquiring deadline token) (.locked none) (.loading none)
  | acquired (deadline : Nat) (token : Token) :
      Resumes options draws (.acquiring deadline token) (.locked (some true)) (.rechecking token)
  | busy (deadline : Nat) (token : Token) :
      Resumes options draws (.acquiring deadline token) (.locked (some false)) (.sleeping deadline)
  | recheckHit {token : Token} {reply : Option (Option Text)} {value : Json}
      (hlookup : lookup reply = some value) :
      Resumes options draws (.rechecking token) (.text reply) (.releasing token (.returned value))
  | recheckMiss {token : Token} {reply : Option (Option Text)} (hlookup : lookup reply = none) :
      Resumes options draws (.rechecking token) (.text reply) (.loading (some token))
  | slept (deadline : Nat) : Resumes options draws (.sleeping deadline) .done (.polling deadline)
  | pollHit {deadline : Nat} {reply : Option (Option Text)} {value : Json}
      (hlookup : lookup reply = some value) :
      Resumes options draws (.polling deadline) (.text reply) (.finished (.returned value))
  | pollMiss {deadline : Nat} {reply : Option (Option Text)} (hlookup : lookup reply = none) :
      Resumes options draws (.polling deadline) (.text reply) (.checking deadline)
  | loadFailed (token : Option Token) :
      Resumes options draws (.loading token) (.card none) (finish token .threw)
  | loaded (token : Option Token) (fresh : Option ProductCard) :
      Resumes options draws (.loading token) (.card (some fresh))
        (.storing token fresh (ttlSec draws fresh))
  | stored (token : Option Token) (fresh : Option ProductCard) (ttlSec : Nat) :
      Resumes options draws (.storing token fresh ttlSec) .done
        (finish token (.returned (ofCard fresh)))
  | released (token : Token) (outcome : Outcome) :
      Resumes options draws (.releasing token outcome) .done (.finished outcome)

theorem resumes_of_resume (hresume : resume options draws phase answer = some next) :
    Resumes options draws phase answer next := by
  unfold resume at hresume
  split at hresume
  case h_3 =>
    rename_i reply
    split at hresume
    · rename_i value hlookup
      cases hresume
      exact .hit hlookup
    · rename_i hlookup
      cases hflight : options.singleFlight with
      | true =>
          rw [hflight] at hresume
          cases hresume
          exact .miss hlookup hflight
      | false =>
          rw [hflight] at hresume
          cases hresume
          exact .missAlone hlookup hflight
  case h_5 =>
    split at hresume
    · rename_i hnow
      cases hresume
      exact .turn hnow
    · rename_i hnow
      cases hresume
      exact .spent hnow
  case h_9 =>
    split at hresume
    · rename_i value hlookup
      cases hresume
      exact .recheckHit hlookup
    · rename_i hlookup
      cases hresume
      exact .recheckMiss hlookup
  case h_11 =>
    split at hresume
    · rename_i value hlookup
      cases hresume
      exact .pollHit hlookup
    · rename_i hlookup
      cases hresume
      exact .pollMiss hlookup
  all_goals
    cases hresume
    try constructor

/-- A call that is not over asks for something, and goes on with any answer to it. -/
theorem exists_resume (hphase : ∀ outcome, phase ≠ .finished outcome) :
    ∃ request, phase.request productId = some request ∧
      ∀ draws answer, Fits request answer →
        ∃ next, resume options draws phase answer = some next := by
  cases phase with
  | finished outcome => exact absurd rfl (hphase outcome)
  | looking | rechecking token | polling deadline =>
      refine ⟨_, rfl, fun draws answer hfits => ?_⟩
      cases answer with
      | text reply => cases hlookup : lookup reply <;> simp [resume, hlookup]
      | _ => exact absurd hfits id
  | missed | checking deadline =>
      refine ⟨_, rfl, fun draws answer hfits => ?_⟩
      cases answer with
      | time now => exact ⟨_, rfl⟩
      | _ => exact absurd hfits id
  | acquiring deadline token =>
      refine ⟨_, rfl, fun draws answer hfits => ?_⟩
      cases answer with
      | locked reply =>
          obtain _ | _ | _ := reply
          all_goals exact ⟨_, rfl⟩
      | _ => exact absurd hfits id
  | direct | loading token =>
      refine ⟨_, rfl, fun draws answer hfits => ?_⟩
      cases answer with
      | card reply => cases reply <;> exact ⟨_, rfl⟩
      | _ => exact absurd hfits id
  | sleeping deadline | storing token fresh ttlSec | releasing token outcome =>
      refine ⟨_, rfl, fun draws answer hfits => ?_⟩
      cases answer with
      | done => exact ⟨_, rfl⟩
      | _ => exact absurd hfits id

end Marketplace.Cards
