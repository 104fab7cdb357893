import Mathlib.Data.List.Chain
import Marketplace.Cards.ProductCardService

/-!
# A card is read whatever Redis does

A call of `getCard` against an environment that answers each request as it likes: with a failure,
with any text, with any state of the lock, at any time.
-/

namespace Marketplace.Cards

open Shop (ProductCard cardKey)
open Transition

abbrev Event := Request × Answer

structure Running where
  phase : Phase
  /-- What was asked and answered so far. -/
  events : List Event

/-- The answer to what the call asks for. -/
def advance (options : ProductCardOptions) (productId : ProductId) (running : Running)
    (action : Answer × Draws) : Option Running :=
  (running.phase.request productId).bind fun request =>
    (resume options action.2 running.phase action.1).map fun next =>
      ⟨next, running.events ++ [(request, action.1)]⟩

def Running.init (options : ProductCardOptions) : Running := ⟨start options, []⟩

/-! ### What the events say -/

def isLoad : Event → Bool
  | (.loadCard _, _) => true
  | _ => false

def isAttempt : Event → Bool
  | (.setNx _ _ _, _) => true
  | _ => false

/-- The token that `acquire` returns. -/
def acquiredToken : Event → Option Token
  | (.setNx _ token _, .locked (some true)) => some token
  | _ => none

def releasedToken : Event → Option Token
  | (.release _ token, _) => some token
  | _ => none

def readTime : Event → Option Nat
  | (.now, .time now) => some now
  | _ => none

def loads (events : List Event) : Nat := events.countP isLoad

def attempts (events : List Event) : Nat := events.countP isAttempt

def acquired (events : List Event) : List Token := events.filterMap acquiredToken

def released (events : List Event) : List Token := events.filterMap releasedToken

def times (events : List Event) : List Nat := events.filterMap readTime

/-- The readings of the clock that let the loop go on. -/
def turns : List Nat → Nat
  | [] => 0
  | began :: checks => checks.countP (· < began + lockWaitBudgetMs)

/-- The clock does not go back, and from one turn of the loop to the next it advances by `gap`. -/
def Advances (gap : Nat) : List Nat → Prop
  | [] => True
  | began :: checks =>
      (∀ first ∈ checks.head?, began ≤ first) ∧
        checks.IsChain fun left right => left + gap ≤ right

section Events

variable (events : List Event) (event : Event)

@[simp]
theorem loads_append :
    loads (events ++ [event]) = loads events + if isLoad event then 1 else 0 := by
  simp [loads]

@[simp]
theorem attempts_append :
    attempts (events ++ [event]) = attempts events + if isAttempt event then 1 else 0 := by
  simp [attempts]

@[simp]
theorem acquired_append :
    acquired (events ++ [event]) = acquired events ++ (acquiredToken event).toList := by
  cases htoken : acquiredToken event <;> simp [acquired, htoken]

@[simp]
theorem released_append :
    released (events ++ [event]) = released events ++ (releasedToken event).toList := by
  cases htoken : releasedToken event <;> simp [released, htoken]

@[simp]
theorem times_append : times (events ++ [event]) = times events ++ (readTime event).toList := by
  cases htime : readTime event <;> simp [times, htime]

end Events

theorem turns_append {began : Nat} (checks : List Nat) (now : Nat) :
    turns (began :: checks ++ [now]) =
      turns (began :: checks) + if now < began + lockWaitBudgetMs then 1 else 0 := by
  simp [turns]

/-- The outcome has its reason in the events. -/
def Justified (productId : ProductId) (events : List Event) : Outcome → Prop
  | .returned value =>
      (∃ raw, (.get (cardKey productId), .text (some (some raw))) ∈ events ∧
        Json.parse raw = some value) ∨
      ∃ fresh, (.loadCard productId, .card (some fresh)) ∈ events ∧ value = ofCard fresh
  | .threw => (.loadCard productId, .card none) ∈ events

/-! ### One call -/

/-- The token whose release is still to come. -/
def Phase.token : Phase → Option Token
  | .rechecking token | .releasing token _ => some token
  | .loading token | .storing token _ _ => token
  | _ => none

/-- `loadCard` is behind the call. -/
def Phase.hasLoaded : Phase → Bool
  | .storing _ _ _ | .releasing _ _ | .finished _ => true
  | _ => false

def Phase.isAcquiring : Phase → Bool
  | .acquiring _ _ => true
  | _ => false

/-- What the call goes on with has its reason in the events. -/
def Phase.Reasoned (productId : ProductId) (events : List Event) : Phase → Prop
  | .storing _ fresh _ => (.loadCard productId, .card (some fresh)) ∈ events
  | .releasing _ outcome | .finished outcome => Justified productId events outcome
  | _ => True

/-- The deadline has been made from the first reading of the clock. -/
def Phase.Clocked (times : List Nat) : Phase → Prop
  | .looking | .missed => times = []
  | .checking deadline | .acquiring deadline _ | .sleeping deadline | .polling deadline =>
      ∃ began checks, times = began :: checks ∧ deadline = began + lockWaitBudgetMs
  | _ => True

/-- The requests since the last turn of the loop, at most. -/
def Phase.since : Phase → Nat
  | .direct | .looking | .sleeping _ | .rechecking _ => 0
  | .missed | .polling _ | .loading (some _) => 1
  | .checking _ | .storing (some _) _ _ => 2
  | .acquiring _ _ | .loading none | .releasing _ _ => 3
  | .storing none _ _ => 4
  | .finished _ => 5

structure FaultInv (productId : ProductId) (running : Running) : Prop where
  tokens : acquired running.events = released running.events ++ running.phase.token.toList
  loaded : loads running.events ≤ if running.phase.hasLoaded then 1 else 0
  reasoned : running.phase.Reasoned productId running.events
  clocked : running.phase.Clocked (times running.events)
  tried : attempts running.events + (if running.phase.isAcquiring then 1 else 0) =
    turns (times running.events)
  steps : running.events.length ≤ 4 * attempts running.events + running.phase.since

variable {options : ProductCardOptions} {productId : ProductId} {before after : Running}
  {action : Answer × Draws}

theorem advance_cases (hstep : advance options productId before action = some after) :
    ∃ request, before.phase.request productId = some request ∧
      Resumes options action.2 before.phase action.1 after.phase ∧
      after.events = before.events ++ [(request, action.1)] := by
  obtain ⟨request, hrequest, hresume⟩ := Option.bind_eq_some_iff.mp hstep
  obtain ⟨next, hnext, rfl⟩ := Option.map_eq_some_iff.mp hresume
  exact ⟨request, hrequest, resumes_of_resume hnext, rfl⟩

theorem lookup_eq_some {reply : Option (Option Text)} {value : Json}
    (hlookup : lookup reply = some value) :
    ∃ raw, reply = some (some raw) ∧ Json.parse raw = some value := by
  unfold lookup at hlookup
  split at hlookup
  · exact ⟨_, rfl, hlookup⟩
  · cases hlookup

theorem Justified.append {events : List Event} {outcome : Outcome}
    (hjustified : Justified productId events outcome) (later : List Event) :
    Justified productId (events ++ later) outcome := by
  cases outcome with
  | threw => exact List.mem_append_left _ hjustified
  | returned value =>
      obtain ⟨raw, hmem, hparse⟩ | ⟨fresh, hmem, hvalue⟩ := hjustified
      · exact .inl ⟨raw, List.mem_append_left _ hmem, hparse⟩
      · exact .inr ⟨fresh, List.mem_append_left _ hmem, hvalue⟩

theorem justified_hit {events : List Event} {reply : Option (Option Text)} {value : Json}
    (hlookup : lookup reply = some value) :
    Justified productId (events ++ [(.get (cardKey productId), .text reply)])
      (.returned value) := by
  obtain ⟨raw, rfl, hparse⟩ := lookup_eq_some hlookup
  exact .inl ⟨raw, List.mem_append_right _ List.mem_cons_self, hparse⟩

theorem inv_init : FaultInv productId (.init options) := by
  unfold Running.init start
  cases options.cached <;>
    constructor <;> simp [acquired, released, Phase.token, loads, Phase.hasLoaded, Phase.Reasoned,
      Phase.Clocked, attempts, turns, times, Phase.isAcquiring]

/-! ### One step -/

section Step

variable {request : Request} {events : List Event} {phase next : Phase} {answer : Answer}
  {draws : Draws}

theorem tokens_step (hrequest : phase.request productId = some request)
    (hresumes : Resumes options draws phase answer next)
    (htokens : acquired events = released events ++ phase.token.toList) :
    acquired (events ++ [(request, answer)]) =
      released (events ++ [(request, answer)]) ++ next.token.toList := by
  rw [acquired_append, released_append, htokens]
  cases hresumes <;> cases hrequest
  case loadFailed token | stored token fresh ttlSec =>
    cases token <;> simp [acquiredToken, releasedToken, Phase.token, finish]
  all_goals simp [acquiredToken, releasedToken, Phase.token]

theorem loaded_step (hrequest : phase.request productId = some request)
    (hresumes : Resumes options draws phase answer next)
    (hloaded : loads events ≤ if phase.hasLoaded then 1 else 0) :
    loads (events ++ [(request, answer)]) ≤ if next.hasLoaded then 1 else 0 := by
  rw [loads_append]
  cases hresumes <;> cases hrequest
  case loadFailed token | stored token fresh ttlSec =>
    cases token <;> simpa [isLoad, Phase.hasLoaded, finish] using hloaded
  all_goals simp_all [isLoad, Phase.hasLoaded]

theorem reasoned_step (hrequest : phase.request productId = some request)
    (hresumes : Resumes options draws phase answer next)
    (hreasoned : phase.Reasoned productId events) :
    next.Reasoned productId (events ++ [(request, answer)]) := by
  have hlast : ∀ event : Event, event ∈ events ++ [event] := fun event =>
    List.mem_append_right _ List.mem_cons_self
  cases hresumes <;> cases hrequest
  case directFailed => exact hlast _
  case directLoaded fresh => exact .inr ⟨fresh, hlast _, rfl⟩
  case hit reply value hlookup => exact justified_hit hlookup
  case recheckHit token reply value hlookup => exact justified_hit hlookup
  case pollHit deadline reply value hlookup => exact justified_hit hlookup
  case loadFailed token => cases token <;> exact hlast _
  case loaded token fresh => exact hlast _
  case stored token fresh ttlSec =>
    have hloaded : Justified productId events (.returned (ofCard fresh)) :=
      .inr ⟨fresh, hreasoned, rfl⟩
    cases token <;> exact hloaded.append _
  case released token outcome => exact Justified.append hreasoned _
  all_goals trivial

theorem clocked_step (hrequest : phase.request productId = some request)
    (hresumes : Resumes options draws phase answer next) (hclocked : phase.Clocked (times events)) :
    next.Clocked (times (events ++ [(request, answer)])) := by
  rw [times_append]
  cases hresumes <;> cases hrequest
  case begin now =>
    have hnone : times events = [] := hclocked
    exact ⟨now, [], by rw [hnone]; rfl, rfl⟩
  case turn deadline now hnow =>
    obtain ⟨began, checks, htimes, hdeadline⟩ := hclocked
    exact ⟨began, checks ++ [now], by rw [htimes]; rfl, hdeadline⟩
  case loadFailed token | stored token fresh ttlSec => cases token <;> trivial
  all_goals simp_all [Phase.Clocked, readTime]

theorem tried_step (hrequest : phase.request productId = some request)
    (hresumes : Resumes options draws phase answer next) (hclocked : phase.Clocked (times events))
    (htried : attempts events + (if phase.isAcquiring then 1 else 0) = turns (times events)) :
    attempts (events ++ [(request, answer)]) + (if next.isAcquiring then 1 else 0) =
      turns (times (events ++ [(request, answer)])) := by
  rw [attempts_append, times_append]
  cases hresumes <;> cases hrequest
  case begin now =>
    have hnone : times events = [] := hclocked
    simpa [hnone, turns, isAttempt, readTime, Phase.isAcquiring] using htried
  case turn deadline now hnow =>
    obtain ⟨began, checks, htimes, rfl⟩ := hclocked
    rw [htimes] at htried ⊢
    simp only [readTime, Option.toList_some, turns_append, hnow, if_true]
    simpa [isAttempt, Phase.isAcquiring] using htried
  case spent deadline now hnow =>
    obtain ⟨began, checks, htimes, rfl⟩ := hclocked
    rw [htimes] at htried ⊢
    simp only [readTime, Option.toList_some, turns_append, hnow, if_false]
    simpa [isAttempt, Phase.isAcquiring] using htried
  case loadFailed token | stored token fresh ttlSec =>
    cases token <;> simpa [isAttempt, readTime, Phase.isAcquiring, finish] using htried
  all_goals simpa [isAttempt, readTime, Phase.isAcquiring] using htried

theorem steps_step (hrequest : phase.request productId = some request)
    (hresumes : Resumes options draws phase answer next)
    (hsteps : events.length ≤ 4 * attempts events + phase.since) :
    (events ++ [(request, answer)]).length ≤
      4 * attempts (events ++ [(request, answer)]) + next.since := by
  rw [List.length_append, List.length_singleton, attempts_append]
  cases hresumes <;> cases hrequest
  case loadFailed token | stored token fresh ttlSec =>
    cases token <;> simp [isAttempt, Phase.since, finish] at hsteps ⊢ <;> omega
  case loaded token fresh =>
    cases token <;> simp [isAttempt, Phase.since] at hsteps ⊢ <;> omega
  all_goals
    simp [isAttempt, Phase.since] at hsteps ⊢
    omega

end Step

theorem FaultInv.step (hinv : FaultInv productId before)
    (hstep : advance options productId before action = some after) : FaultInv productId after := by
  obtain ⟨request, hrequest, hresumes, hevents⟩ := advance_cases hstep
  constructor <;> rw [hevents]
  · exact tokens_step hrequest hresumes hinv.tokens
  · exact loaded_step hrequest hresumes hinv.loaded
  · exact reasoned_step hrequest hresumes hinv.reasoned
  · exact clocked_step hrequest hresumes hinv.clocked
  · exact tried_step hrequest hresumes hinv.clocked hinv.tried
  · exact steps_step hrequest hresumes hinv.steps

theorem inv_reach {running : Running}
    (hreach : Reachable (advance options productId) (.init options) running) :
    FaultInv productId running :=
  hreach.invariant (FaultInv productId) inv_init fun _ _ _ _ hinv _ hstep => hinv.step hstep

/-! ### A run as a whole -/

/-- Readings that are `gap` apart and not below `start`: how many of them are below a limit. -/
theorem countP_mul_lt (gap limit : Nat) {checks : List Nat} (start : Nat)
    (hstart : ∀ first ∈ checks.head?, start ≤ first)
    (hchain : checks.IsChain fun left right => left + gap ≤ right) :
    checks.countP (· < limit) = 0 ∨ checks.countP (· < limit) * gap + start < limit + gap := by
  induction checks generalizing start with
  | nil => exact .inl rfl
  | cons check rest ih =>
      have hfirst : start ≤ check := hstart check rfl
      have hrest : rest.IsChain fun left right => left + gap ≤ right := hchain.of_cons
      have hnext : ∀ first ∈ rest.head?, check + gap ≤ first := by
        cases rest with
        | nil => exact nofun
        | cons second rest =>
            intro first hhead
            rw [← Option.some.inj hhead]
            exact (List.isChain_cons_cons.mp hchain).1
      by_cases hcheck : check < limit
      · rw [List.countP_cons_of_pos (by simpa using hcheck), Nat.succ_mul]
        rcases ih (check + gap) hnext hrest with hzero | hlt
        · rw [hzero]
          omega
        · omega
      · rw [List.countP_cons_of_neg (by simpa using hcheck)]
        rcases ih (check + gap) hnext hrest with hzero | hlt
        · exact .inl hzero
        · omega

theorem turns_mul_lt {gap : Nat} {readings : List Nat} (hadvances : Advances gap readings) :
    turns readings * gap < lockWaitBudgetMs + gap := by
  cases readings with
  | nil =>
      rw [turns, Nat.zero_mul]
      exact Nat.lt_of_lt_of_le (by decide) (Nat.le_add_right _ _)
  | cons began checks =>
      obtain hzero | hlt :=
        countP_mul_lt gap (began + lockWaitBudgetMs) began hadvances.1 hadvances.2
      · rw [turns, hzero, Nat.zero_mul]
        exact Nat.lt_of_lt_of_le (by decide) (Nat.le_add_right _ _)
      · rw [turns]
        omega

/-- An environment answers each request, knowing all that was asked before. -/
abbrev Environment := List Event → Request → Answer × Draws

/-- The call after so many answers, or when it is over. -/
def exec (options : ProductCardOptions) (productId : ProductId) (environment : Environment) :
    Nat → Running
  | 0 => .init options
  | count + 1 =>
      let running := exec options productId environment count
      match running.phase.request productId with
      | none => running
      | some request =>
          (advance options productId running (environment running.events request)).getD running

variable {environment : Environment}

theorem advance_isSome {running : Running} (hphase : ∀ outcome, running.phase ≠ .finished outcome) :
    ∃ request, running.phase.request productId = some request ∧
      ∀ action : Answer × Draws, Fits request action.1 →
        ∃ next, advance options productId running action =
          some ⟨next, running.events ++ [(request, action.1)]⟩ := by
  obtain ⟨request, hrequest, hresume⟩ := exists_resume hphase
  refine ⟨request, hrequest, fun action hfits => ?_⟩
  obtain ⟨next, hnext⟩ := hresume action.2 action.1 hfits
  refine ⟨next, ?_⟩
  rw [advance, hrequest, Option.bind_some, hnext, Option.map_some]

theorem exec_reach (options : ProductCardOptions) (productId : ProductId)
    (environment : Environment) (count : Nat) :
    Reachable (advance options productId) (.init options)
      (exec options productId environment count) := by
  induction count with
  | zero => exact .refl
  | succ count ih =>
      rw [exec]
      cases hrequest : (exec options productId environment count).phase.request productId with
      | none => exact ih
      | some request =>
          dsimp only
          cases hstep : advance options productId (exec options productId environment count)
              (environment (exec options productId environment count).events request) with
          | none => exact ih
          | some after => exact Reachable.tail ih hstep

/-- Until the call is over, every answer takes it a step further. -/
theorem exec_length (hfits : ∀ events request, Fits request (environment events request).1)
    {count : Nat} (hover : ∀ earlier < count, ∀ outcome,
      (exec options productId environment earlier).phase ≠ .finished outcome) :
    (exec options productId environment count).events.length = count := by
  induction count with
  | zero => rfl
  | succ count ih =>
      have hcount := ih fun earlier hlt => hover earlier (Nat.lt_succ_of_lt hlt)
      obtain ⟨request, hrequest, hnext⟩ : ∃ request,
          (exec options productId environment count).phase.request productId = some request ∧ _ :=
        advance_isSome (hover count (Nat.lt_succ_self count))
      obtain ⟨next, hstep⟩ := hnext (environment _ request) (hfits _ request)
      rw [exec, hrequest]
      dsimp only
      rw [hstep, Option.getD_some, List.length_append, hcount, List.length_singleton]

theorem attempts_mul_lt {running : Running} (hinv : FaultInv productId running) {gap : Nat}
    (hadvances : Advances gap (times running.events)) :
    attempts running.events * gap < lockWaitBudgetMs + gap := by
  refine Nat.lt_of_le_of_lt (Nat.mul_le_mul_right gap ?_) (turns_mul_lt hadvances)
  rw [← hinv.tried]
  exact Nat.le_add_right _ _

theorem since_le (phase : Phase) : phase.since ≤ 5 := by
  unfold Phase.since
  split <;> decide

/-- With a clock that advances the call comes to an end. -/
theorem exists_over (hfits : ∀ events request, Fits request (environment events request).1)
    (hclock : ∀ count, Advances 1 (times (exec options productId environment count).events)) :
    ∃ count < 4 * lockWaitBudgetMs + 6, ∃ outcome,
      (exec options productId environment count).phase = .finished outcome := by
  obtain ⟨bound, hbound⟩ : ∃ bound, bound = 4 * lockWaitBudgetMs + 6 := ⟨_, rfl⟩
  rw [← hbound]
  by_contra hnever
  have hlength : (exec options productId environment bound).events.length = bound :=
    exec_length hfits fun earlier hlt outcome hover => hnever ⟨earlier, hlt, outcome, hover⟩
  have hinv := inv_reach (exec_reach options productId environment bound)
  have hsteps := hinv.steps
  have hattempts := attempts_mul_lt hinv (hclock bound)
  have hsince := since_le (exec options productId environment bound).phase
  omega

/-- What holds of a call at any time, whatever it is answered. -/
structure Undisturbed (options : ProductCardOptions) (productId : ProductId) (running : Running) :
    Prop where
  throws : running.phase = .finished .threw → (.loadCard productId, .card none) ∈ running.events
  returns : ∀ value, running.phase = .finished (.returned value) →
    (∃ raw, (.get (cardKey productId), .text (some (some raw))) ∈ running.events ∧
      Json.parse raw = some value) ∨
    ∃ fresh, (.loadCard productId, .card (some fresh)) ∈ running.events ∧ value = ofCard fresh
  loads : loads running.events ≤ 1
  /-- Each token that `acquire` has returned is released once. -/
  releases : ∀ outcome, running.phase = .finished outcome →
    released running.events = acquired running.events
  attempts : ∀ gap, Advances gap (times running.events) →
    attempts running.events * gap < lockWaitBudgetMs + gap
  /-- The call waits for an answer, and any will do. -/
  goesOn : (∀ outcome, running.phase ≠ .finished outcome) →
    ∃ request, running.phase.request productId = some request ∧
      ∀ action : Answer × Draws, Fits request action.1 →
        ∃ next, advance options productId running action =
          some ⟨next, running.events ++ [(request, action.1)]⟩

/-- A card is read whatever Redis does. -/
theorem getCard_undisturbed (options : ProductCardOptions) (productId : ProductId) :
    (∀ running, Reachable (advance options productId) (.init options) running →
      Undisturbed options productId running) ∧
    ∀ environment : Environment, (∀ events request, Fits request (environment events request).1) →
      (∀ count, Advances 1 (times (exec options productId environment count).events)) →
      ∃ count < 4 * lockWaitBudgetMs + 6, ∃ outcome,
        (exec options productId environment count).phase = .finished outcome := by
  refine ⟨fun running hreach => ?_, fun environment hfits hclock => exists_over hfits hclock⟩
  have hinv := inv_reach hreach
  have hreasoned := hinv.reasoned
  refine
    { throws := fun hover => by rwa [hover] at hreasoned
      returns := fun value hover => by rwa [hover] at hreasoned
      loads := ?_
      releases := fun outcome hover => ?_
      attempts := fun gap hadvances => attempts_mul_lt hinv hadvances
      goesOn := advance_isSome }
  · refine Nat.le_trans hinv.loaded ?_
    split <;> decide
  · have htokens := hinv.tokens
    rw [hover] at htokens
    simpa [Phase.token] using htokens.symm

/-- The first look fails, the entry that the second one finds is no JSON, and the entry cannot be
written: the card is read, and the lock is given back. -/
def brokenAnswers : List (Answer × Draws) :=
  [(.text none, ⟨[], 0⟩), (.time 0, ⟨[], 0⟩), (.time 0, ⟨['t'], 0⟩), (.locked (some true), ⟨[], 0⟩),
    (.text (some (some ['{'])), ⟨[], 0⟩), (.card (some none), ⟨[], 0⟩), (.done, ⟨[], 0⟩),
    (.done, ⟨[], 0⟩)]

/-- The lock is never free, the entry is no JSON, and the clock counts the commands. -/
def heldLock : Environment := fun events request =>
  match request with
  | .get _ => (.text (some (some ['{'])), ⟨[], 0⟩)
  | .now => (.time events.length, ⟨[], 0⟩)
  | .setNx _ _ _ => (.locked (some false), ⟨[], 0⟩)
  | .loadCard _ => (.card (some none), ⟨[], 0⟩)
  | .sleep _ | .set _ _ _ | .release _ _ => (.done, ⟨[], 0⟩)

theorem advances_append {readings : List Nat} {now : Nat} (hadvances : Advances 1 readings)
    (hlate : ∀ time ∈ readings, time < now) : Advances 1 (readings ++ [now]) := by
  cases readings with
  | nil => exact ⟨nofun, .nil⟩
  | cons began checks =>
      obtain ⟨hfirst, hchain⟩ := hadvances
      refine ⟨?_, List.isChain_append.mpr ⟨hchain, .singleton _, ?_⟩⟩
      · intro first hhead
        cases checks with
        | nil =>
            cases hhead
            exact Nat.le_of_lt (hlate began List.mem_cons_self)
        | cons check rest => exact hfirst first hhead
      · intro last hlast first hhead
        cases hhead
        exact hlate last (List.mem_cons_of_mem _ (List.mem_of_getLast? hlast))

theorem advances_heldLock (options : ProductCardOptions) (productId : ProductId) (count : Nat) :
    (∀ time ∈ times (exec options productId heldLock count).events,
      time < (exec options productId heldLock count).events.length) ∧
    Advances 1 (times (exec options productId heldLock count).events) := by
  induction count with
  | zero => exact ⟨nofun, trivial⟩
  | succ count ih =>
      rw [exec]
      generalize exec options productId heldLock count = running at ih ⊢
      cases hrequest : running.phase.request productId with
      | none => exact ih
      | some request =>
          dsimp only
          cases hstep : advance options productId running (heldLock running.events request) with
          | none => exact ih
          | some next =>
              rw [advance, hrequest, Option.bind_some, Option.map_eq_some_iff] at hstep
              obtain ⟨phase, -, rfl⟩ := hstep
              simp only [Option.getD_some, times_append, List.length_append, List.length_singleton]
              cases request with
              | now =>
                  refine ⟨fun time hmem => ?_, advances_append ih.2 ih.1⟩
                  rcases List.mem_append.mp hmem with hold | hnew
                  · exact Nat.lt_succ_of_lt (ih.1 time hold)
                  · cases List.mem_singleton.mp hnew
                    exact Nat.lt_succ_self _
              | _ =>
                  rw [show Option.toList _ = [] from rfl, List.append_nil]
                  exact ⟨fun time hmem => Nat.lt_succ_of_lt (ih.1 time hmem), ih.2⟩

theorem getCard_undisturbed_broken :
    (∃ running, Reachable (advance ⟨true, true⟩ 42) (.init ⟨true, true⟩) running ∧
      running.phase = .finished (.returned .null) ∧ released running.events = [['t']] ∧
      Undisturbed ⟨true, true⟩ 42 running) ∧
    ∃ count < 4 * lockWaitBudgetMs + 6, ∃ outcome,
      (exec ⟨true, true⟩ 42 heldLock count).phase = .finished outcome := by
  constructor
  · obtain ⟨running, hreach, hcheck⟩ : ∃ running,
        Reachable (advance ⟨true, true⟩ 42) (.init ⟨true, true⟩) running ∧
          decide (running.phase = .finished (.returned .null) ∧
            released running.events = [['t']]) = true :=
      exists_reach_of_runWithin brokenAnswers (by decide +kernel)
    obtain ⟨hover, hreleased⟩ := of_decide_eq_true hcheck
    exact ⟨running, hreach, hover, hreleased,
      (getCard_undisturbed ⟨true, true⟩ 42).1 running hreach⟩
  · refine (getCard_undisturbed ⟨true, true⟩ 42).2 heldLock (fun _ request => ?_)
      fun count => (advances_heldLock _ _ count).2
    cases request <;> trivial

end Marketplace.Cards
