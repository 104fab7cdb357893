import Marketplace.Cards.CardCache
import Marketplace.Shop.ProductCards

/-!
# How old a card can be

An entry lives no longer than its TTL after it was written, and it was written no longer than a
given delay after the snapshot it was made from. Neither the lock nor `invalidate` has a part in it.
-/

namespace Marketplace.Cards

open Expiring.Store
open Shop (ProductCard cardKey)
open Transition

/-- The longest time that an entry lives. -/
def maxTtlSec : Option ProductCard → Nat
  | some _ => cardTtlBaseSec + cardTtlSpreadSec
  | none => negativeTtlSec

section Definitions

variable {Db : Type} (loadCard : Db → ProductId → Option (Option ProductCard))
  (visited : List (Nat × Db)) (delay : Nat)

/-- What `loadCard` would have answered at some time. -/
def Known (productId : ProductId) (time : Nat) (card : Option ProductCard) : Prop :=
  ∃ db, (time, db) ∈ visited ∧ loadCard db productId = some card

/-- What `loadCard` would have answered, not long before `since`. -/
def Supported (productId : ProductId) (since : Nat) (value : Json) : Prop :=
  ∃ card time, value = ofCard card ∧ Known loadCard visited productId time card ∧
    since ≤ time + delay + seconds (maxTtlSec card)

structure CallerFresh (clock : Nat) (caller : Caller) : Prop where
  started : caller.startedAt ≤ clock
  text : ∀ raw, caller.reply = some (.text (some (some raw))) →
    ∃ value, raw = Json.stringify value ∧
    Supported loadCard visited delay caller.productId caller.startedAt value
  card : ∀ fresh, caller.reply = some (.card (some fresh)) →
    Known loadCard visited caller.productId caller.snapshotAt fresh ∧
      caller.startedAt ≤ caller.snapshotAt
  storing : ∀ token fresh ttlSec, caller.phase = .storing token fresh ttlSec →
    Known loadCard visited caller.productId caller.snapshotAt fresh ∧
      caller.startedAt ≤ caller.snapshotAt ∧ ttlSec ≤ maxTtlSec fresh
  releasing : ∀ token value, caller.phase = .releasing token (.returned value) →
    Supported loadCard visited delay caller.productId caller.startedAt value

/-- A command that writes a card writes one that is known, or else it is about a lock. -/
structure CommandFresh (command : Request × Nat) : Prop where
  set : ∀ key raw ttlSec, command.1 = .set key raw ttlSec → ∃ productId card,
    key = cardKey productId ∧ raw = Json.stringify (ofCard card) ∧
      Known loadCard visited productId command.2 card ∧ ttlSec ≤ maxTtlSec card
  setNx : ∀ name token ttlMs, command.1 = .setNx name token ttlMs →
    ∃ productId, name = cardLockKey productId

structure FreshInv (state : State Db) : Prop where
  current : (state.clock, state.db) ∈ state.visited
  callers : ∀ call caller, state.callers call = some caller →
    CallerFresh loadCard state.visited delay state.clock caller
  entries : ∀ productId item, state.redis (cardKey productId) = some item → ∃ card time,
    item.value = Json.stringify (ofCard card) ∧ Known loadCard state.visited productId time card ∧
      item.deadline ≤ time + delay + seconds (maxTtlSec card)
  late : ∀ command ∈ state.late, CommandFresh loadCard state.visited command
  returns : ∀ ended ∈ state.returns, ended.startedAt ≤ ended.returnedAt ∧
    ∀ value, ended.outcome = .returned value →
      Supported loadCard state.visited delay ended.productId ended.startedAt value

def isSet : Request → Bool
  | .set _ _ _ => true
  | _ => false

/-- No card is written later than `delay` after the snapshot that it was made from. -/
def StoresWithin (state : State Db) : Action Db → Prop
  | .execute call =>
      match state.callers call with
      | some caller => caller.request.any isSet = true → state.clock ≤ caller.snapshotAt + delay
      | none => True
  | .late index =>
      match state.late[index]? with
      | some command => isSet command.1 = true → state.clock ≤ command.2 + delay
      | none => True
  | _ => True

instance (state : State Db) (action : Action Db) : Decidable (StoresWithin delay state action) :=
  match action with
  | .execute call =>
      show Decidable (match state.callers call with
        | some caller => caller.request.any isSet = true → state.clock ≤ caller.snapshotAt + delay
        | none => True) from
      match state.callers call with
      | some _ => inferInstance
      | none => inferInstanceAs (Decidable True)
  | .late index =>
      show Decidable (match state.late[index]? with
        | some command => isSet command.1 = true → state.clock ≤ command.2 + delay
        | none => True) from
      match state.late[index]? with
      | some _ => inferInstance
      | none => inferInstanceAs (Decidable True)
  | .tick _ | .commit _ | .getCard _ _ _ | .fail _ | .resume _ _ | .del _ =>
      inferInstanceAs (Decidable True)

end Definitions

variable {Db : Type} {loadCard : Db → ProductId → Option (Option ProductCard)}
  {visited visited' : List (Nat × Db)} {delay : Nat} {productId : ProductId}
  {since time clock clock' : Nat} {value : Json} {card : Option ProductCard} {caller : Caller}
  {command : Request × Nat} {before after : State Db} {action : Action Db}

/-! ### What is known stays known -/

theorem Known.mono (hknown : Known loadCard visited productId time card)
    (hle : visited ⊆ visited') :
    Known loadCard visited' productId time card := by
  obtain ⟨db, hmem, hload⟩ := hknown
  exact ⟨db, hle hmem, hload⟩

theorem Supported.mono (hsupported : Supported loadCard visited delay productId since value)
    (hle : visited ⊆ visited') : Supported loadCard visited' delay productId since value := by
  obtain ⟨card, time, hvalue, hknown, hsince⟩ := hsupported
  exact ⟨card, time, hvalue, hknown.mono hle, hsince⟩

theorem Known.supported (hknown : Known loadCard visited productId time card)
    (hsince : since ≤ time) :
    Supported loadCard visited delay productId since (ofCard card) :=
  ⟨card, time, rfl, hknown, by omega⟩

theorem CallerFresh.mono (hfresh : CallerFresh loadCard visited delay clock caller)
    (hle : visited ⊆ visited') (hclock : clock ≤ clock') :
    CallerFresh loadCard visited' delay clock' caller where
  started := Nat.le_trans hfresh.started hclock
  text raw hraw := by
    obtain ⟨value, hvalue, hsupported⟩ := hfresh.text raw hraw
    exact ⟨value, hvalue, hsupported.mono hle⟩
  card fresh hcard := (hfresh.card fresh hcard).imp_left fun hknown => hknown.mono hle
  storing token fresh ttlSec hphase :=
    (hfresh.storing token fresh ttlSec hphase).imp_left fun hknown => hknown.mono hle
  releasing token value hphase := (hfresh.releasing token value hphase).mono hle

theorem CommandFresh.mono (hfresh : CommandFresh loadCard visited command)
    (hle : visited ⊆ visited') :
    CommandFresh loadCard visited' command where
  set key raw ttlSec hset := by
    obtain ⟨productId, card, hkey, hraw, hknown, httl⟩ := hfresh.set key raw ttlSec hset
    exact ⟨productId, card, hkey, hraw, hknown.mono hle, httl⟩
  setNx := hfresh.setNx

/-- Time passes and transactions commit. -/
theorem FreshInv.visit (hinv : FreshInv loadCard delay before) (hclock : before.clock ≤ clock)
    (db : Db) :
    FreshInv loadCard delay
      { before with clock := clock, db := db, visited := before.visited ++ [(clock, db)] } where
  current := List.mem_append_right _ List.mem_cons_self
  callers call caller hcaller :=
    (hinv.callers call caller hcaller).mono (List.subset_append_left _ _) hclock
  entries productId item hitem := by
    obtain ⟨card, time, hvalue, hknown, hdeadline⟩ := hinv.entries productId item hitem
    exact ⟨card, time, hvalue, hknown.mono (List.subset_append_left _ _), hdeadline⟩
  late command hcommand := (hinv.late command hcommand).mono (List.subset_append_left _ _)
  returns ended hended := by
    obtain ⟨hle, hsupported⟩ := hinv.returns ended hended
    exact ⟨hle, fun value hvalue => (hsupported value hvalue).mono (List.subset_append_left _ _)⟩

/-! ### Requests -/

theorem ttlSec_le (draws : Draws) (fresh : Option ProductCard) :
    ttlSec draws fresh ≤ maxTtlSec fresh := by
  cases fresh with
  | none => exact Nat.le_refl _
  | some card =>
      have hjitter := draws.jitter.isLt
      simp only [ttlSec, jitteredTtl, maxTtlSec]
      omega

/-- The requests of a call are about its own product. -/
theorem CallerFresh.commandFresh (hfresh : CallerFresh loadCard visited delay clock caller)
    {request : Request} (hrequest : caller.request = some request) :
    CommandFresh loadCard visited (request, caller.snapshotAt) := by
  constructor
  · rintro key raw ttlSec rfl
    unfold Caller.request Phase.request at hrequest
    split at hrequest <;> cases hrequest
    rename_i token fresh hphase
    obtain ⟨hknown, -, httl⟩ := hfresh.storing _ _ _ hphase
    exact ⟨caller.productId, fresh, rfl, rfl, hknown, httl⟩
  · rintro name token ttlMs rfl
    unfold Caller.request Phase.request at hrequest
    split at hrequest <;> cases hrequest
    exact ⟨caller.productId, rfl⟩

/-- Whatever is executed leaves entries that are as young as they should be. -/
theorem FreshInv.entries_execute (hinv : FreshInv loadCard delay before)
    (hcommand : CommandFresh loadCard before.visited command)
    (hdelay : isSet command.1 = true → before.clock ≤ command.2 + delay) (productId : ProductId)
    (item : Item)
    (hitem : (before.redis.execute before.clock command.1).1 (cardKey productId) = some item) :
    ∃ card time, item.value = Json.stringify (ofCard card) ∧
      Known loadCard before.visited productId time card ∧
      item.deadline ≤ time + delay + seconds (maxTtlSec card) := by
  obtain hold | ⟨raw, ttlSec, hset, rfl⟩ | ⟨token, ttlMs, hsetNx, rfl⟩ := execute_cases hitem
  · exact hinv.entries productId item hold
  · obtain ⟨other, card, hkey, hraw, hknown, httl⟩ := hcommand.set _ _ _ hset
    have hclock := hdelay (by rw [hset]; rfl)
    obtain rfl : productId = other := Shop.cardKey_injective hkey
    refine ⟨card, command.2, hraw, hknown, ?_⟩
    simp only [seconds]
    omega
  · obtain ⟨other, hname⟩ := hcommand.setNx _ _ _ hsetNx
    exact absurd hname (cardKey_ne_cardLockKey productId other)

/-! ### Steps of a call -/

theorem FreshInv.callers_put (hinv : FreshInv loadCard delay before) {call : Call}
    (hcaller : CallerFresh loadCard before.visited delay before.clock caller) :
    ∀ other found, (before.put call caller).callers other = some found →
      CallerFresh loadCard before.visited delay before.clock found :=
  State.forall_put hcaller fun other found _ hfound => hinv.callers other found hfound

/-- A call begins with a look at the cache, or with its query. -/
theorem callerFresh_start (options : ProductCardOptions) :
    CallerFresh loadCard visited delay clock
      ⟨productId, options, clock, start options, none, 0⟩ := by
  refine ⟨Nat.le_refl _, nofun, nofun, ?_, ?_⟩
  · intro token fresh ttlSec hphase
    dsimp only [start] at hphase
    split at hphase <;> cases hphase
  · intro token value hphase
    dsimp only [start] at hphase
    split at hphase <;> cases hphase

/-- The query takes its snapshot now. -/
theorem callerFresh_load (hinv : FreshInv loadCard delay before)
    (hfresh : CallerFresh loadCard before.visited delay before.clock caller)
    (hrequest : caller.request = some (.loadCard productId)) :
    CallerFresh loadCard before.visited delay before.clock { caller with
      reply := some (.card (loadCard before.db productId)), snapshotAt := before.clock } := by
  have hproduct : caller.productId = productId := by
    unfold Caller.request Phase.request at hrequest
    split at hrequest <;> cases hrequest
    · rfl
    · rfl
  refine ⟨hfresh.started, nofun, ?_, ?_, hfresh.releasing⟩
  · intro fresh hcard
    have hload : loadCard before.db productId = some fresh := by simpa using hcard
    exact ⟨⟨before.db, hinv.current, by rw [hproduct]; exact hload⟩, hfresh.started⟩
  · intro token fresh ttlSec hphase
    have hphase : caller.phase = .storing token fresh ttlSec := hphase
    rw [Caller.request, hphase] at hrequest
    cases hrequest

/-- What a look at the cache finds is the entry of the product. -/
theorem callerFresh_answer (hinv : FreshInv loadCard delay before)
    (hfresh : CallerFresh loadCard before.visited delay before.clock caller) {request : Request}
    (hrequest : caller.request = some request) :
    CallerFresh loadCard before.visited delay before.clock { caller with
      reply := some (before.redis.execute before.clock request).2 } := by
  refine ⟨hfresh.started, ?_, ?_, hfresh.storing, hfresh.releasing⟩
  · intro raw hraw
    cases request with
    | get key =>
        have hkey : key = cardKey caller.productId := by
          unfold Caller.request Phase.request at hrequest
          split at hrequest <;> cases hrequest <;> rfl
        have hread : before.redis.read before.clock key = some raw := by
          simpa [Redis.execute] using hraw
        obtain ⟨item, hitem, hlive, rfl⟩ := read_eq_some hread
        rw [hkey] at hitem
        obtain ⟨card, time, hvalue, hknown, hdeadline⟩ := hinv.entries _ item hitem
        have hstarted := hfresh.started
        exact ⟨ofCard card, hvalue, card, time, rfl, hknown, by dsimp only; omega⟩
    | _ => simp [Redis.execute] at hraw
  · intro fresh hcard
    cases request <;> simp [Redis.execute] at hcard

theorem callerFresh_fail (hfresh : CallerFresh loadCard visited delay clock caller)
    {request : Request} {answer : Answer} (hfailure : failure request = some answer) :
    CallerFresh loadCard visited delay clock { caller with reply := some answer } := by
  refine ⟨hfresh.started, ?_, ?_, hfresh.storing, hfresh.releasing⟩
  · intro raw hraw
    cases request <;> cases hfailure <;> cases hraw
  · intro fresh hcard
    cases request <;> cases hfailure <;> cases hcard

theorem supported_hit (hfresh : CallerFresh loadCard visited delay clock caller)
    {reply : Option (Option Text)} (hreply : caller.reply = some (.text reply))
    (hlookup : lookup reply = some value) :
    Supported loadCard visited delay caller.productId caller.startedAt value := by
  unfold lookup at hlookup
  split at hlookup
  case h_2 => cases hlookup
  rename_i raw
  obtain ⟨found, rfl, hsupported⟩ := hfresh.text raw hreply
  rw [Json.parse_stringify] at hlookup
  cases hlookup
  exact hsupported

/-- A value that the call is about to return, or returns. -/
def Phase.answered : Phase → Option Json
  | .releasing _ (.returned value) | .finished (.returned value) => some value
  | _ => none

/-- What an answer makes a call return is supported. -/
theorem supported_resume (hfresh : CallerFresh loadCard visited delay clock caller) {draws : Draws}
    {answer : Answer} {next : Phase} (hreply : caller.reply = some answer)
    (hresumes : Resumes caller.options draws caller.phase answer next)
    (hnext : next.answered = some value) :
    Supported loadCard visited delay caller.productId caller.startedAt value := by
  generalize hphase : caller.phase = phase at hresumes
  cases hresumes
  case directLoaded fresh =>
    cases hnext
    obtain ⟨hknown, hstarted⟩ := hfresh.card fresh hreply
    exact hknown.supported hstarted
  case hit reply found hlookup | recheckHit token reply found hlookup
      | pollHit deadline reply found hlookup =>
    cases hnext
    exact supported_hit hfresh hreply hlookup
  case loadFailed token => cases token <;> cases hnext
  case stored token fresh ttlSec =>
    have hvalue : value = ofCard fresh := by cases token <;> cases hnext <;> rfl
    obtain ⟨hknown, hstarted, -⟩ := hfresh.storing token fresh ttlSec hphase
    rw [hvalue]
    exact hknown.supported hstarted
  case released token outcome =>
    cases outcome with
    | threw => cases hnext
    | returned found =>
        cases hnext
        exact hfresh.releasing token value hphase
  all_goals cases hnext

theorem callerFresh_resume (hfresh : CallerFresh loadCard visited delay clock caller)
    {draws : Draws} {answer : Answer} {next : Phase} (hreply : caller.reply = some answer)
    (hresumes : Resumes caller.options draws caller.phase answer next) :
    CallerFresh loadCard visited delay clock { caller with phase := next, reply := none } := by
  refine ⟨hfresh.started, nofun, nofun, ?_, ?_⟩
  · intro held card lifetime (hnext : next = .storing held card lifetime)
    generalize caller.phase = phase at hresumes
    cases hresumes
    case loaded token fresh =>
      cases hnext
      obtain ⟨hknown, hstarted⟩ := hfresh.card _ hreply
      exact ⟨hknown, hstarted, ttlSec_le draws _⟩
    case loadFailed token | stored token fresh ttlSec => cases token <;> cases hnext
    all_goals cases hnext
  · intro token value (hnext : next = .releasing token (.returned value))
    have hanswered : next.answered = some value := by rw [hnext]; rfl
    have hsupported := supported_resume hfresh hreply hresumes hanswered
    exact hsupported

theorem isSet_of_storesWithin {call : Call} {request : Request}
    (hok : StoresWithin delay before (.execute call)) (hcaller : before.callers call = some caller)
    (hrequest : caller.request = some request) (hset : isSet request = true) :
    before.clock ≤ caller.snapshotAt + delay := by
  simp only [StoresWithin, hcaller] at hok
  exact hok (by rw [hrequest, Option.any_some, hset])

theorem FreshInv.step (hinv : FreshInv loadCard delay before)
    (hok : StoresWithin delay before action) (hstep : step loadCard before action = some after) :
    FreshInv loadCard delay after := by
  cases action with
  | tick ms =>
      cases hstep
      exact hinv.visit (Nat.le_add_right _ _) before.db
  | commit db =>
      cases hstep
      exact hinv.visit (Nat.le_refl _) db
  | getCard call productId options =>
      obtain ⟨-, rfl⟩ := getCard_spec hstep
      exact ⟨hinv.current, hinv.callers_put (callerFresh_start options), hinv.entries, hinv.late,
        hinv.returns⟩
  | execute call =>
      obtain ⟨caller, hcaller, -, ⟨productId, hrequest, rfl⟩ | ⟨request, hrequest, -, rfl⟩⟩ :=
        execute_spec hstep
      · have hload := callerFresh_load hinv (hinv.callers call caller hcaller) hrequest
        exact ⟨hinv.current, hinv.callers_put hload, hinv.entries, hinv.late, hinv.returns⟩
      · have hfresh := hinv.callers call caller hcaller
        exact ⟨hinv.current, hinv.callers_put (callerFresh_answer hinv hfresh hrequest),
          hinv.entries_execute (hfresh.commandFresh hrequest)
            (isSet_of_storesWithin hok hcaller hrequest), hinv.late, hinv.returns⟩
  | fail call =>
      obtain ⟨caller, request, answer, hcaller, hrequest, hfailure, rfl⟩ := fail_spec hstep
      have hfresh := hinv.callers call caller hcaller
      refine ⟨hinv.current, hinv.callers_put (callerFresh_fail hfresh hfailure), hinv.entries, ?_,
        hinv.returns⟩
      intro command hcommand
      rcases List.mem_append.mp hcommand with hold | hnew
      · exact hinv.late command hold
      · split at hnew
        · rw [List.mem_singleton.mp hnew]
          exact hfresh.commandFresh hrequest
        · cases hnew
  | resume call draws =>
      obtain ⟨caller, answer, next, hcaller, hreply, hresumes, rfl⟩ := resumeCall_spec hstep
      have hfresh := hinv.callers call caller hcaller
      refine ⟨hinv.current,
        hinv.callers_put (callerFresh_resume hfresh hreply hresumes), hinv.entries, hinv.late, ?_⟩
      intro found hfound
      rcases List.mem_append.mp hfound with hold | hnew
      · exact hinv.returns found hold
      · unfold ended at hnew
        split at hnew
        case h_2 => cases hnew
        rw [List.mem_singleton.mp hnew]
        refine ⟨hfresh.started, fun value hvalue => ?_⟩
        cases hvalue
        exact supported_resume hfresh hreply hresumes rfl
  | late index =>
      obtain ⟨command, hmem, hindex, rfl⟩ := late_spec hstep
      refine ⟨hinv.current, hinv.callers, ?_, ?_, hinv.returns⟩
      · refine hinv.entries_execute (hinv.late command hmem) fun hset => ?_
        simp only [StoresWithin, hindex] at hok
        exact hok hset
      · exact fun other hother => hinv.late other (List.mem_of_mem_eraseIdx hother)
  | del key =>
      cases hstep
      refine ⟨hinv.current, hinv.callers, ?_, hinv.late, hinv.returns⟩
      intro productId item hitem
      have hitem : Function.update before.redis key none (cardKey productId) = some item := hitem
      by_cases heq : cardKey productId = key
      · rw [heq, Function.update_self] at hitem
        cases hitem
      · rw [Function.update_of_ne heq] at hitem
        exact hinv.entries productId item hitem

theorem freshInv_init (db : Db) : FreshInv loadCard delay (.init db) where
  current := List.mem_cons_self
  callers _ _ hcaller := by cases hcaller
  entries _ _ hitem := by cases hitem
  late _ hcommand := by cases hcommand
  returns _ hended := by cases hended

theorem ofCard_eq_null_iff : ofCard card = .null ↔ card = none := by
  cases card with
  | none => exact iff_of_true rfl rfl
  | some card => exact iff_of_false nofun nofun

/-- How old the values of a run are: what a call returns is what the database would have answered at
some time, not longer before the end of the call than the call took, an entry lives and a store may
take. -/
structure BoundedStaleness (loadCard : Db → ProductId → Option (Option ProductCard)) (delay : Nat)
    (state : State Db) : Prop where
  card : ∀ ended ∈ state.returns, ∀ value, ended.outcome = .returned value → ∃ time db card,
    (time, db) ∈ state.visited ∧ loadCard db ended.productId = some card ∧ value = ofCard card ∧
      ended.returnedAt ≤
        time + (seconds 360 + delay) + (ended.returnedAt - ended.startedAt)
  absence : ∀ ended ∈ state.returns, ended.outcome = .returned .null → ∃ time db,
    (time, db) ∈ state.visited ∧ loadCard db ended.productId = some none ∧
      ended.returnedAt ≤
        time + (seconds 30 + delay) + (ended.returnedAt - ended.startedAt)

/-- Card staleness is bounded. -/
theorem getCard_staleness (loadCard : Db → ProductId → Option (Option ProductCard)) (delay : Nat)
    (db : Db) {state : State Db}
    (hreach : Reach (step loadCard) (StoresWithin delay) (.init db) state) :
    BoundedStaleness loadCard delay state := by
  have hinv : FreshInv loadCard delay state :=
    hreach.invariant (FreshInv loadCard delay) (freshInv_init db)
      fun _ _ _ _ hinv hok hstep => hinv.step hok hstep
  constructor
  · intro ended hended value hvalue
    obtain ⟨hle, hsupported⟩ := hinv.returns ended hended
    obtain ⟨card, time, heq, ⟨db, hmem, hload⟩, hsince⟩ := hsupported value hvalue
    have hlonger : maxTtlSec card ≤ 360 := by
      cases card with
      | none => decide
      | some card => exact Nat.le_refl 360
    refine ⟨time, db, card, hmem, hload, heq, ?_⟩
    simp only [seconds] at hsince ⊢
    omega
  · intro ended hended hvalue
    obtain ⟨hle, hsupported⟩ := hinv.returns ended hended
    obtain ⟨card, time, heq, ⟨db, hmem, hload⟩, hsince⟩ := hsupported .null hvalue
    obtain rfl := ofCard_eq_null_iff.mp heq.symm
    refine ⟨time, db, hmem, hload, ?_⟩
    simp only [seconds, maxTtlSec, negativeTtlSec] at hsince ⊢
    omega

def lampCard : ProductCard := ⟨['3'], "Lamp", 100, "UAH", 5, 0, .integer 0, 0⟩

/-- The lamp is there or it is not. -/
def lampCards (listed : Bool) (productId : ProductId) : Option (Option ProductCard) :=
  some (if listed && productId = 3 then some lampCard else none)

/-- One request of a call, executed and answered at once. -/
def turnOf (call : Call) (draws : Draws) : List (Action Bool) := [.execute call, .resume call draws]

/-- The lamp is looked for before it is listed, and once more half a minute later. -/
def absentTrace : List (Action Bool) :=
  [.getCard 0 3 ⟨true, true⟩] ++ (List.replicate 8 (turnOf 0 ⟨['t'], 0⟩)).flatten ++
    [.commit true, .tick 29999, .getCard 1 3 ⟨true, true⟩] ++ turnOf 1 ⟨['u'], 0⟩

theorem getCard_staleness_absent :
    ∃ state, Reach (step lampCards) (StoresWithin 0) (.init false) state ∧
      state.returns = [⟨3, 0, 0, .returned .null⟩, ⟨3, 29999, 29999, .returned .null⟩] ∧
      BoundedStaleness lampCards 0 state := by
  obtain ⟨state, hreach, hcheck⟩ : ∃ state,
      Reach (step lampCards) (StoresWithin 0) (.init false) state ∧
        decide (state.returns =
          [⟨3, 0, 0, .returned .null⟩, ⟨3, 29999, 29999, .returned .null⟩]) = true :=
    exists_reach_of_runWithin absentTrace (by decide +kernel)
  exact ⟨state, hreach, of_decide_eq_true hcheck, getCard_staleness lampCards 0 false hreach⟩

end Marketplace.Cards
