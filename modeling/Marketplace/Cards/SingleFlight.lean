import Marketplace.Cards.CardCache

/-!
# One query for a cold key

Calls for one product while nothing goes wrong. The lock, the second look under it and the store
before its release leave one call to ask the database; a call whose wait budget is spent asks it as
well, without another look at the cache.
-/

namespace Marketplace.Cards

open Expiring.Store
open Shop (ProductCard cardKey)
open Transition

def isStoring : Phase → Bool
  | .storing _ _ _ => true
  | _ => false

/-- The deadline of a call that waits for another one. -/
def waitsUntil : Phase → Option Nat
  | .checking deadline | .acquiring deadline _ | .sleeping deadline | .polling deadline =>
      some deadline
  | _ => none

/-- What the call makes of the time that it has got. -/
def BudgetSpent (caller : Caller) : Prop :=
  match caller.phase, caller.reply with
  | .checking deadline, some (.time now) => ¬ now < deadline
  | _, _ => False

instance (caller : Caller) : Decidable (BudgetSpent caller) := by
  unfold BudgetSpent
  split <;> infer_instance

section Conditions

variable {Db : Type} (loadCard : Db → ProductId → Option (Option ProductCard))
  (productId : ProductId) (state : State Db)

/-- The card is not stored, or the call that has stored it does not know yet. -/
def Unfinished : Prop :=
  state.redis (cardKey productId) = none ∨
    ∃ call ∈ state.started, (state.callers call).any (fun caller => isStoring caller.phase) = true

/-- Redis answers, and the database does; nothing is deleted, and no entry expires. The lock does
not expire before the load and the store of the call that holds it are done. -/
def Calm : Action Db → Prop
  | .tick ms =>
      (∀ item ∈ state.redis (cardKey productId), state.clock + ms < item.deadline) ∧
        (Unfinished productId state →
          ∀ item ∈ state.redis (cardLockKey productId), state.clock + ms < item.deadline)
  | .commit _ | .resume _ _ => True
  | .getCard _ id options => id = productId ∧ options = ⟨true, true⟩
  | .execute call =>
      (state.callers call).bind Caller.request = some (.loadCard productId) →
        loadCard state.db productId ≠ none
  | .fail _ | .late _ | .del _ => False

/-- The load and the store are done before the wait budget of any call ends. -/
def BudgetsOutlast : Action Db → Prop
  | .tick ms => Unfinished productId state → ∀ call ∈ state.started,
      ∀ deadline ∈ (state.callers call).bind fun caller => waitsUntil caller.phase,
        state.clock + ms < deadline
  | _ => True

/-- No call finds its wait budget spent: one that waits looks at the cache once more after the
store. -/
def LooksAgain : Action Db → Prop
  | .resume call _ => ∀ caller ∈ state.callers call, ¬ BudgetSpent caller
  | _ => True

instance : Decidable (Unfinished productId state) := by
  unfold Unfinished
  infer_instance

instance (action : Action Db) : Decidable (Calm loadCard productId state action) := by
  cases action <;> unfold Calm <;> infer_instance

instance (action : Action Db) : Decidable (BudgetsOutlast productId state action) := by
  cases action <;> unfold BudgetsOutlast <;> infer_instance

instance (action : Action Db) : Decidable (LooksAgain state action) := by
  cases action <;> unfold LooksAgain <;> infer_instance

/-! ### Before the store and after it -/

/-- A call that does not hold the lock and has not seen the card. -/
def Waiting : Phase → Option Answer → Prop
  | .looking, reply | .polling _, reply => reply = none ∨ reply = some (.text (some none))
  | .missed, _ | .checking _, _ | .sleeping _, _ => True
  | .acquiring _ _, reply => reply = none ∨ reply = some (.locked (some false))
  | _, _ => False

/-- The call that holds the lock, with what it has loaded. -/
def Leading (loaded : Option (Option ProductCard)) : Phase → Option Answer → Prop
  | .acquiring _ _, reply => reply = some (.locked (some true)) ∧ loaded = none
  | .rechecking _, reply => (reply = none ∨ reply = some (.text (some none))) ∧ loaded = none
  | .loading (some _), none => loaded = none
  | .loading (some _), some reply => ∃ fresh, reply = .card (some fresh) ∧ loaded = some fresh
  | .storing (some _) fresh ttlSec, none => loaded = some fresh ∧ 0 < ttlSec
  | _, _ => False

/-- Any call once the card is stored: what it has seen of the card, or returns, is the stored
one. -/
def Settled (fresh : Option ProductCard) : Phase → Option Answer → Prop
  | .looking, reply | .polling _, reply => reply = none ∨ reply = some (.text (some none)) ∨
      reply = some (.text (some (some (Json.stringify (ofCard fresh)))))
  | .rechecking _, reply => reply = none ∨
      reply = some (.text (some (some (Json.stringify (ofCard fresh)))))
  | .missed, _ | .checking _, _ | .sleeping _, _ => True
  | .acquiring _ _, reply => reply ≠ some (.locked none)
  | .storing _ card _, reply => reply ≠ none ∧ card = fresh
  | .releasing _ outcome, _ | .finished outcome, _ => outcome = .returned (ofCard fresh)
  | _, _ => False

/-- What a call does while nothing is stored. -/
def Placed (leader : Option Call) (loaded : Option (Option ProductCard)) (call : Call)
    (caller : Caller) : Prop :=
  (leader = some call → Leading loaded caller.phase caller.reply) ∧
    (leader ≠ some call → Waiting caller.phase caller.reply)

/-- Nothing is stored. `leader` holds the lock. -/
structure Cold (leader : Option Call) (loaded : Option (Option ProductCard)) : Prop where
  entry : state.redis (cardKey productId) = none
  free : leader = none → state.redis (cardLockKey productId) = none
  locked : leader ≠ none → ∃ item, state.redis (cardLockKey productId) = some item ∧
    state.clock < item.deadline
  loads : state.loads = loaded.toList.map fun fresh => (productId, some fresh)
  unloaded : leader = none → loaded = none
  present : ∀ call, leader = some call → state.callers call ≠ none
  callers : ∀ call caller, state.callers call = some caller → Placed leader loaded call caller

/-- `fresh` is stored. -/
structure Warm (fresh : Option ProductCard) : Prop where
  entry : ∃ item, state.redis (cardKey productId) = some item ∧
    item.value = Json.stringify (ofCard fresh) ∧ state.clock < item.deadline
  loads : state.loads = [(productId, some fresh)]
  settled : ∀ call caller, state.callers call = some caller →
    Settled fresh caller.phase caller.reply

/-- All calls are for the product. -/
def Asked : Prop :=
  ∀ call caller, state.callers call = some caller →
    caller.productId = productId ∧ caller.options = ⟨true, true⟩

/-- What goes on in a run without a failure whose calls never find their wait budgets spent. -/
def Smooth (state : State Db) (action : Action Db) : Prop :=
  Calm loadCard productId state action ∧ LooksAgain state action

instance (action : Action Db) : Decidable (Smooth loadCard productId state action) := by
  unfold Smooth
  infer_instance

end Conditions

variable {Db : Type} {loadCard : Db → ProductId → Option (Option ProductCard)}
  {productId : ProductId} {before after state : State Db} {action : Action Db} {call : Call}
  {caller : Caller} {leader : Option Call} {loaded : Option (Option ProductCard)}
  {fresh : Option ProductCard} {phase next : Phase} {reply : Option Answer} {answer : Answer}
  {draws : Draws}

/-! ### What an answer leads to -/

@[simp]
theorem lookup_miss : lookup (some none) = none := rfl

@[simp]
theorem lookup_stored (fresh : Option ProductCard) :
    lookup (some (some (Json.stringify (ofCard fresh)))) = some (ofCard fresh) :=
  Json.parse_stringify _

theorem ttlSec_pos (draws : Draws) (fresh : Option ProductCard) : 0 < ttlSec draws fresh := by
  cases fresh with
  | none => simp [ttlSec, negativeTtlSec]
  | some card =>
      simp only [ttlSec, jitteredTtl, cardTtlBaseSec]
      omega

theorem Waiting.resume (hwaiting : Waiting phase (some answer))
    (hlooks : ∀ deadline, phase = .checking deadline → ∀ now, answer = .time now → now < deadline)
    (hresumes : Resumes ⟨true, true⟩ draws phase answer next) : Waiting next none := by
  cases hresumes
  case spent deadline now hnow => exact absurd (hlooks deadline rfl now rfl) hnow
  case missAlone hlookup hflight => cases hflight
  case stored token fresh ttlSec => exact absurd hwaiting id
  all_goals simp_all [Waiting]

theorem Leading.resume (hleading : Leading loaded phase (some answer))
    (hresumes : Resumes ⟨true, true⟩ draws phase answer next) : Leading loaded next none := by
  cases hresumes
  case loadFailed token => cases token <;> simp [Leading] at hleading
  case loaded token fresh =>
    cases token with
    | none => exact absurd hleading id
    | some token =>
        obtain ⟨fresh', hfresh, hloaded⟩ := hleading
        cases hfresh
        exact ⟨hloaded, ttlSec_pos draws fresh⟩
  case stored token fresh ttlSec => cases token <;> exact absurd hleading id
  all_goals simp_all [Leading]

theorem Settled.resume (hsettled : Settled fresh phase (some answer))
    (hlooks : ∀ deadline, phase = .checking deadline → ∀ now, answer = .time now → now < deadline)
    (hresumes : Resumes ⟨true, true⟩ draws phase answer next) : Settled fresh next none := by
  cases hresumes
  case spent deadline now hnow => exact absurd (hlooks deadline rfl now rfl) hnow
  case missAlone hlookup hflight => cases hflight
  case stored token card ttlSec =>
    obtain ⟨-, rfl⟩ := hsettled
    cases token <;> rfl
  case hit reply value hlookup | pollHit deadline reply value hlookup =>
    obtain hnone | hmiss | hstored := hsettled
    · cases hnone
    · cases hmiss
      cases hlookup
    · cases hstored
      rw [lookup_stored] at hlookup
      cases hlookup
      rfl
  case recheckHit token reply value hlookup =>
    obtain hnone | hstored := hsettled
    · cases hnone
    · cases hstored
      rw [lookup_stored] at hlookup
      cases hlookup
      rfl
  case recheckMiss token reply hlookup =>
    obtain hnone | hstored := hsettled
    · cases hnone
    · cases hstored
      rw [lookup_stored] at hlookup
      cases hlookup
  all_goals simp_all [Settled]

/-- The store changes nothing for the calls that wait. -/
theorem Waiting.settled (hwaiting : Waiting phase reply) (fresh : Option ProductCard) :
    Settled fresh phase reply := by
  cases phase <;> simp only [Waiting, Settled] at hwaiting ⊢
  case looking | polling deadline => exact hwaiting.imp_right .inl
  case acquiring deadline token => rcases hwaiting with rfl | rfl <;> simp

/-! ### Steps before the store -/

theorem Leading.loading (hleading : Leading loaded phase none) {asked : ProductId}
    (hrequest : phase.request productId = some (.loadCard asked)) :
    asked = productId ∧ loaded = none ∧ ∃ token, phase = .loading (some token) := by
  cases phase with
  | loading token =>
      cases hrequest
      cases token with
      | none => exact absurd hleading id
      | some token => exact ⟨rfl, hleading, token, rfl⟩
  | direct => exact absurd hleading id
  | _ => cases hrequest

theorem Waiting.not_loading (hwaiting : Waiting phase none) {asked : ProductId} :
    phase.request productId ≠ some (.loadCard asked) := by
  intro hrequest
  cases phase with
  | direct | loading token => exact absurd hwaiting id
  | _ => cases hrequest

theorem Settled.not_loading (hsettled : Settled fresh phase none) {asked : ProductId} :
    phase.request productId ≠ some (.loadCard asked) := by
  intro hrequest
  cases phase with
  | direct | loading token => exact absurd hsettled id
  | _ => cases hrequest

theorem Phase.loadCard_request {asked : ProductId}
    (hrequest : phase.request productId = some (.loadCard asked)) : asked = productId := by
  cases phase <;> cases hrequest <;> rfl

/-- The query of the call that holds the lock is the first. -/
theorem Cold.load (hcold : Cold productId before leader loaded)
    (hcaller : before.callers call = some caller) (hreply : caller.reply = none)
    (hproduct : caller.productId = productId) {asked : ProductId}
    (hrequest : caller.request = some (.loadCard asked))
    (hload : loadCard before.db productId ≠ none) :
    ∃ fresh, Cold productId { before.put call { caller with
        reply := some (.card (loadCard before.db asked)), snapshotAt := before.clock } with
      loads := before.loads ++ [(asked, loadCard before.db asked)] } leader (some fresh) := by
  obtain ⟨fresh, hfresh⟩ := Option.ne_none_iff_exists'.mp hload
  obtain ⟨hleading, hwaiting⟩ := hcold.callers call caller hcaller
  rw [hreply] at hleading hwaiting
  rw [Caller.request, hproduct] at hrequest
  have hleader : leader = some call := by
    by_contra hne
    exact (hwaiting hne).not_loading hrequest
  obtain ⟨rfl, rfl, token, hphase⟩ := (hleading hleader).loading hrequest
  refine ⟨fresh, hcold.entry, hcold.free, hcold.locked, ?_, ?_,
    fun other hother => State.callers_put_ne_none (hcold.present other hother), ?_⟩
  · simp [hcold.loads, hfresh]
  · intro hnone
    rw [hnone] at hleader
    cases hleader
  · refine State.forall_put ⟨fun _ => ?_, fun hne => absurd hleader hne⟩ ?_
    · dsimp only
      rw [hphase, hfresh]
      exact ⟨fresh, rfl, rfl⟩
    · intro other found hne hfound
      refine ⟨fun hother => ?_, (hcold.callers other found hfound).2⟩
      exact absurd (Option.some.inj (hother.symm.trans hleader)) hne

/-- A call gets an answer, or goes on with one, and nothing else changes. -/
theorem Cold.put (hcold : Cold productId before leader loaded)
    (hplaced : Placed leader loaded call caller) {started : List Call} {tokens : List Token}
    {returns : List Return} :
    Cold productId { before.put call caller with
      started := started, tokens := tokens, returns := returns } leader loaded where
  entry := hcold.entry
  free := hcold.free
  locked := hcold.locked
  loads := hcold.loads
  unloaded := hcold.unloaded
  present other hother := State.callers_put_ne_none (hcold.present other hother)
  callers := State.forall_put hplaced fun other found _ hfound => hcold.callers other found hfound

/-- The first command for the lock gets it. -/
theorem Cold.acquire (hcold : Cold productId before none loaded) {deadline : Nat} {token : Token}
    (hphase : caller.phase = .acquiring deadline token) :
    Cold productId { before.put call { caller with reply := some (.locked (some true)) } with
      redis := before.redis.set before.clock (cardLockKey productId) token lockTtlMs }
      (some call) loaded where
  entry := by
    change before.redis.set before.clock (cardLockKey productId) token lockTtlMs
      (cardKey productId) = none
    rw [set_of_ne (cardKey_ne_cardLockKey productId productId), hcold.entry]
  free := nofun
  locked _ := ⟨_, Function.update_self _ _ _, Nat.lt_add_of_pos_right (by decide)⟩
  loads := hcold.loads
  unloaded := nofun
  present other hother := by
    cases hother
    simp [State.put]
  callers := by
    refine State.forall_put ⟨fun _ => ?_, fun hne => absurd rfl hne⟩ ?_
    · dsimp only
      rw [hphase]
      exact ⟨rfl, hcold.unloaded rfl⟩
    · intro other found hne hfound
      refine ⟨fun hsame => absurd (Option.some.inj hsame).symm hne, fun _ => ?_⟩
      exact (hcold.callers other found hfound).2 nofun

/-- With the store the wait is over for every call. -/
theorem Cold.store (hcold : Cold productId before (some call) (some fresh)) {token : Option Token}
    {ttlSec : Nat} (hphase : caller.phase = .storing token fresh ttlSec) (hpos : 0 < ttlSec) :
    Warm productId { before.put call { caller with reply := some .done } with
      redis := before.redis.set before.clock (cardKey productId) (Json.stringify (ofCard fresh))
        (seconds ttlSec) } fresh where
  entry := by
    refine ⟨_, Function.update_self _ _ _, rfl, ?_⟩
    simp only [State.put, seconds]
    omega
  loads := hcold.loads
  settled := by
    refine State.forall_put ?_ ?_
    · dsimp only
      rw [hphase]
      exact ⟨nofun, rfl⟩
    · intro other found hne hfound
      refine ((hcold.callers other found hfound).2 ?_).settled fresh
      exact fun hsame => hne (Option.some.inj hsame).symm

theorem Cold.execute_leading (hcold : Cold productId before (some call) loaded) {request : Request}
    (hphase : caller.phase = phase) (hleading : Leading loaded phase none)
    (hrequest : phase.request productId = some request)
    (hother : ∀ asked, request ≠ .loadCard asked) :
    let after : State Db := { before.put call { caller with
        reply := some (before.redis.execute before.clock request).2 } with
      redis := (before.redis.execute before.clock request).1 }
    Cold productId after (some call) loaded ∨ ∃ fresh, Warm productId after fresh := by
  intro after
  cases phase with
  | rechecking token =>
      cases hrequest
      refine .inl (hcold.put ⟨fun _ => ?_, fun hne => absurd rfl hne⟩)
      dsimp only
      rw [hphase, Redis.execute, read_of_eq_none hcold.entry]
      exact ⟨.inr rfl, hleading.2⟩
  | loading token =>
      cases hrequest
      exact absurd rfl (hother productId)
  | storing token card ttlSec =>
      cases hrequest
      cases token with
      | none => exact absurd hleading id
      | some token =>
          obtain ⟨rfl, hpos⟩ := hleading
          exact .inr ⟨card, hcold.store hphase hpos⟩
  | acquiring deadline token =>
      obtain ⟨hnone, -⟩ := hleading
      cases hnone
  | _ => exact absurd hleading id

theorem Cold.execute_waiting (hcold : Cold productId before leader loaded)
    (hleader : leader ≠ some call) {request : Request} (hphase : caller.phase = phase)
    (hwaiting : Waiting phase none) (hrequest : phase.request productId = some request) :
    let after : State Db := { before.put call { caller with
        reply := some (before.redis.execute before.clock request).2 } with
      redis := (before.redis.execute before.clock request).1 }
    Cold productId after leader loaded ∨ leader = none ∧
      Cold productId after (some call) loaded := by
  intro after
  have hplaced : ∀ {reply : Option Answer}, Waiting phase reply →
      Placed leader loaded call { caller with reply := reply } :=
    fun hnext => ⟨fun hsame => absurd hsame hleader, fun _ => hphase ▸ hnext⟩
  cases phase with
  | looking | polling deadline =>
      cases hrequest
      refine .inl (hcold.put ?_)
      rw [Redis.execute, read_of_eq_none hcold.entry]
      exact hplaced (.inr rfl)
  | missed | checking deadline | sleeping deadline =>
      cases hrequest
      exact .inl (hcold.put (hplaced trivial))
  | acquiring deadline token =>
      cases hrequest
      subst after
      rw [Redis.execute, Redis.setNx]
      cases leader with
      | none =>
          refine .inr ⟨rfl, ?_⟩
          rw [read_of_eq_none (hcold.free rfl)]
          exact hcold.acquire hphase
      | some other =>
          obtain ⟨item, hitem, hlive⟩ := hcold.locked (by simp)
          refine .inl ?_
          rw [read_of_lt hitem hlive]
          exact hcold.put (hplaced (.inr rfl))
  | _ => exact absurd hwaiting id

/-! ### Steps after the store -/

theorem Warm.read (hwarm : Warm productId state fresh) :
    state.redis.read state.clock (cardKey productId) = some (Json.stringify (ofCard fresh)) := by
  obtain ⟨item, hitem, hvalue, hlive⟩ := hwarm.entry
  rw [read_of_lt hitem hlive, hvalue]

/-- A call gets an answer, or goes on with one, and the entry stays. -/
theorem Warm.put (hwarm : Warm productId before fresh)
    (hsettled : Settled fresh caller.phase caller.reply) {redis : Redis}
    (hredis : redis (cardKey productId) = before.redis (cardKey productId)) {started : List Call}
    {tokens : List Token} {returns : List Return} :
    Warm productId { before.put call caller with
      redis := redis, started := started, tokens := tokens, returns := returns } fresh where
  entry := by
    obtain ⟨item, hitem, hvalue, hlive⟩ := hwarm.entry
    exact ⟨item, hredis.trans hitem, hvalue, hlive⟩
  loads := hwarm.loads
  settled := State.forall_put hsettled fun other found _ hfound => hwarm.settled other found hfound

theorem Warm.execute (hwarm : Warm productId before fresh) {request : Request}
    (hphase : caller.phase = phase) (hsettled : Settled fresh phase none)
    (hrequest : phase.request productId = some request) :
    Warm productId { before.put call { caller with
        reply := some (before.redis.execute before.clock request).2 } with
      redis := (before.redis.execute before.clock request).1 } fresh := by
  have hlock := cardKey_ne_cardLockKey productId productId
  cases phase with
  | looking | polling deadline =>
      cases hrequest
      refine hwarm.put ?_ rfl
      dsimp only
      rw [hphase, Redis.execute, hwarm.read]
      exact .inr (.inr rfl)
  | rechecking token =>
      cases hrequest
      refine hwarm.put ?_ rfl
      dsimp only
      rw [hphase, Redis.execute, hwarm.read]
      exact .inr rfl
  | missed | checking deadline | sleeping deadline =>
      cases hrequest
      refine hwarm.put ?_ rfl
      dsimp only
      rw [hphase]
      trivial
  | acquiring deadline token =>
      cases hrequest
      refine hwarm.put ?_ (setNx_of_ne hlock before.clock token lockTtlMs)
      dsimp only
      simp [hphase, Settled, Redis.execute]
  | storing token card ttlSec => exact absurd rfl hsettled.1
  | releasing token outcome =>
      cases hrequest
      refine hwarm.put ?_ (release_of_ne hlock before.clock token)
      dsimp only
      rw [hphase]
      exact hsettled
  | finished outcome => cases hrequest
  | _ => exact absurd hsettled id

/-! ### Any step -/

theorem Asked.step (hasked : Asked productId before) (hcalm : Calm loadCard productId before action)
    (hstep : step loadCard before action = some after) : Asked productId after := by
  cases action with
  | tick ms | commit db =>
      cases hstep
      exact hasked
  | getCard call id options =>
      obtain ⟨-, rfl⟩ := getCard_spec hstep
      exact State.forall_put hcalm fun other found _ hfound => hasked other found hfound
  | execute call =>
      obtain ⟨caller, hcaller, -, ⟨asked, -, rfl⟩ | ⟨request, -, -, rfl⟩⟩ := execute_spec hstep
      · exact State.forall_put (hasked call caller hcaller) fun other found _ hfound =>
          hasked other found hfound
      · exact State.forall_put (hasked call caller hcaller) fun other found _ hfound =>
          hasked other found hfound
  | resume call draws =>
      obtain ⟨caller, answer, next, hcaller, -, -, rfl⟩ := resumeCall_spec hstep
      exact State.forall_put (hasked call caller hcaller) fun other found _ hfound =>
        hasked other found hfound
  | fail call | late index | del key => exact absurd hcalm id

theorem LooksAgain.now_lt (hlooks : LooksAgain before (.resume call draws))
    (hcaller : before.callers call = some caller) (hreply : caller.reply = some answer) :
    ∀ deadline, caller.phase = .checking deadline → ∀ now, answer = .time now → now < deadline := by
  intro deadline hphase now hnow
  have hspent : ¬ BudgetSpent caller := hlooks caller hcaller
  rw [BudgetSpent, hphase, hreply, hnow] at hspent
  exact not_not.mp hspent

/-- Nothing is stored yet, and the lock has got its holder if it had none; or the card is stored. -/
theorem Cold.step (hcold : Cold productId before leader loaded) (hasked : Asked productId before)
    (hok : Smooth loadCard productId before action)
    (hstep : step loadCard before action = some after) :
    (∃ loaded', Cold productId after leader loaded') ∨
      (leader = none ∧ ∃ call loaded', Cold productId after (some call) loaded') ∨
      ∃ fresh, Warm productId after fresh := by
  obtain ⟨hcalm, hlooks⟩ := hok
  cases action with
  | tick ms =>
      cases hstep
      refine .inl ⟨loaded, hcold.entry, hcold.free, fun hleader => ?_, hcold.loads, hcold.unloaded,
        hcold.present, hcold.callers⟩
      obtain ⟨item, hitem, -⟩ := hcold.locked hleader
      exact ⟨item, hitem, hcalm.2 (.inl hcold.entry) item hitem⟩
  | commit db =>
      cases hstep
      exact .inl ⟨loaded, hcold.entry, hcold.free, hcold.locked, hcold.loads, hcold.unloaded,
        hcold.present, hcold.callers⟩
  | getCard call id options =>
      obtain ⟨rfl, rfl⟩ := hcalm
      obtain ⟨hnone, rfl⟩ := getCard_spec hstep
      have hwaiting : Waiting .looking none := Or.inl rfl
      refine .inl ⟨loaded, hcold.put ⟨fun hleader => ?_, fun _ => hwaiting⟩⟩
      exact absurd hnone (hcold.present call hleader)
  | execute call =>
      obtain ⟨caller, hcaller, hreply, ⟨asked, hrequest, rfl⟩ | ⟨request, hrequest, hother, rfl⟩⟩ :=
        execute_spec hstep
      · have hproduct := (hasked call caller hcaller).1
        have hload : loadCard before.db productId ≠ none := by
          refine hcalm ?_
          rw [hcaller, ← hproduct, ← Phase.loadCard_request hrequest]
          exact hrequest
        obtain ⟨fresh, hnext⟩ := hcold.load hcaller hreply hproduct hrequest hload
        exact .inl ⟨some fresh, hnext⟩
      · rw [Caller.request, (hasked call caller hcaller).1] at hrequest
        obtain ⟨hleading, hwaiting⟩ := hcold.callers call caller hcaller
        rw [hreply] at hleading hwaiting
        by_cases hleader : leader = some call
        · subst hleader
          obtain hnext | hnext := hcold.execute_leading rfl (hleading rfl) hrequest hother
          · exact .inl ⟨loaded, hnext⟩
          · exact .inr (.inr hnext)
        · obtain hnext |
              ⟨hnone, hnext⟩ := hcold.execute_waiting hleader rfl (hwaiting hleader) hrequest
          · exact .inl ⟨loaded, hnext⟩
          · exact .inr (.inl ⟨hnone, call, loaded, hnext⟩)
  | resume call draws =>
      obtain ⟨caller, answer, next, hcaller, hreply, hresumes, rfl⟩ := resumeCall_spec hstep
      obtain ⟨hleading, hwaiting⟩ := hcold.callers call caller hcaller
      rw [(hasked call caller hcaller).2] at hresumes
      rw [hreply] at hleading hwaiting
      refine .inl ⟨loaded, hcold.put ⟨fun hleader => ?_, fun hleader => ?_⟩⟩
      · exact (hleading hleader).resume hresumes
      · exact (hwaiting hleader).resume (hlooks.now_lt hcaller hreply) hresumes
  | fail call | late index | del key => exact absurd hcalm id

/-- The stored card stays. -/
theorem Warm.step (hwarm : Warm productId before fresh) (hasked : Asked productId before)
    (hok : Smooth loadCard productId before action)
    (hstep : step loadCard before action = some after) : Warm productId after fresh := by
  obtain ⟨hcalm, hlooks⟩ := hok
  cases action with
  | tick ms =>
      cases hstep
      obtain ⟨item, hitem, hvalue, -⟩ := hwarm.entry
      exact ⟨⟨item, hitem, hvalue, hcalm.1 item hitem⟩, hwarm.loads, hwarm.settled⟩
  | commit db =>
      cases hstep
      exact ⟨hwarm.entry, hwarm.loads, hwarm.settled⟩
  | getCard call id options =>
      obtain ⟨rfl, rfl⟩ := hcalm
      obtain ⟨-, rfl⟩ := getCard_spec hstep
      have hsettled : Settled fresh .looking none := Or.inl rfl
      exact hwarm.put hsettled rfl
  | execute call =>
      obtain ⟨caller, hcaller, hreply, hcases⟩ := execute_spec hstep
      have hsettled := hwarm.settled call caller hcaller
      rw [hreply] at hsettled
      obtain ⟨asked, hrequest, rfl⟩ | ⟨request, hrequest, hother, rfl⟩ := hcases
      · exact absurd hrequest hsettled.not_loading
      · rw [Caller.request, (hasked call caller hcaller).1] at hrequest
        exact hwarm.execute rfl hsettled hrequest
  | resume call draws =>
      obtain ⟨caller, answer, next, hcaller, hreply, hresumes, rfl⟩ := resumeCall_spec hstep
      have hsettled := hwarm.settled call caller hcaller
      rw [(hasked call caller hcaller).2] at hresumes
      rw [hreply] at hsettled
      exact hwarm.put (hsettled.resume (hlooks.now_lt hcaller hreply) hresumes) rfl
  | fail call | late index | del key => exact absurd hcalm id

/-! ### Any run -/

theorem asked_of_reach {db : Db}
    (hreach : Reach (step loadCard) (Smooth loadCard productId) (.init db) state) :
    Asked productId state := by
  refine hreach.invariant _ (fun call caller hcaller => by cases hcaller) ?_
  intro before action after _ hasked hok hstep
  exact hasked.step hok.1 hstep

theorem Cold.init (db : Db) : Cold productId (.init db) none none := by
  refine ⟨rfl, fun _ => rfl, fun hne => absurd rfl hne, rfl, fun _ => rfl, nofun, ?_⟩
  intro call caller hcaller
  cases hcaller

theorem cold_or_warm_of_reach {db : Db}
    (hreach : Reach (step loadCard) (Smooth loadCard productId) (.init db) state) :
    (∃ leader loaded, Cold productId state leader loaded) ∨
    ∃ fresh, Warm productId state fresh := by
  refine hreach.invariant (fun state => (∃ leader loaded, Cold productId state leader loaded) ∨
    ∃ fresh, Warm productId state fresh) (.inl ⟨none, none, Cold.init db⟩) ?_
  intro before action after hbefore hflight hok hstep
  obtain ⟨leader, loaded, hcold⟩ | ⟨fresh, hwarm⟩ := hflight
  · obtain ⟨loaded', hnext⟩ | ⟨-, call, loaded', hnext⟩ | hnext :=
      hcold.step (asked_of_reach hbefore) hok hstep
    · exact .inl ⟨leader, loaded', hnext⟩
    · exact .inl ⟨some call, loaded', hnext⟩
    · exact .inr hnext
  · exact .inr ⟨fresh, hwarm.step (asked_of_reach hbefore) hok hstep⟩

/-- One query at most, and the calls that are over have returned its card. -/
structure OneFlight (productId : ProductId) (state : State Db) : Prop where
  loads : state.loads.length ≤ 1
  finished : ∀ call caller outcome, state.callers call = some caller →
    caller.phase = .finished outcome →
    ∃ fresh, state.loads = [(productId, some fresh)] ∧ outcome = .returned (ofCard fresh)

theorem oneFlight_of_reach {db : Db}
    (hreach : Reach (step loadCard) (Smooth loadCard productId) (.init db) state) :
    OneFlight productId state := by
  obtain ⟨leader, loaded, hcold⟩ | ⟨fresh, hwarm⟩ := cold_or_warm_of_reach hreach
  · constructor
    · rw [hcold.loads, List.length_map]
      cases loaded <;> simp
    · intro call caller outcome hcaller hphase
      obtain ⟨hleading, hwaiting⟩ := hcold.callers call caller hcaller
      rw [hphase] at hleading hwaiting
      by_cases hleader : leader = some call
      · exact absurd (hleading hleader) id
      · exact absurd (hwaiting hleader) id
  · constructor
    · rw [hwarm.loads]
      exact Nat.le_refl 1
    · intro call caller outcome hcaller hphase
      have hsettled := hwarm.settled call caller hcaller
      rw [hphase] at hsettled
      exact ⟨fresh, hwarm.loads, hsettled⟩

end Marketplace.Cards
