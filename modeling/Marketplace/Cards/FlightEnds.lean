import Marketplace.Cards.SingleFlight
import Marketplace.Cards.Staleness
import Marketplace.Lib.Path

/-!
# Every call returns

The first call to ask for the lock gets it, needs three more turns for its store, and leaves every
other call no more than six turns from its end.
-/

namespace Marketplace.Cards

open Expiring.Store
open Shop (ProductCard cardKey)
open Transition

/-- The turns of a call before it asks for the lock, and the answer to that. -/
def turnsToLock : Phase → Option Answer → Nat
  | .acquiring _ _, none => 1
  | .checking _, _ => 2
  | .missed, _ => 3
  | .looking, _ | .polling _, _ => 4
  | .sleeping _, _ => 5
  | .acquiring _ _, some _ => 6
  | _, _ => 0

/-- The turns of the call with the lock before it stores the card. -/
def turnsToStore : Phase → Option Answer → Nat
  | .acquiring _ _, _ => 3
  | .rechecking _, _ => 2
  | .loading _, _ => 1
  | _, _ => 0

/-- The turns of a call once the card is stored. -/
def turnsToEnd : Phase → Option Answer → Nat
  | .finished _, _ => 0
  | .releasing _ _, _ => 1
  | .rechecking _, _ | .storing _ _ _, _ | .sleeping _, _ => 2
  | .acquiring _ _, _ => 3
  | .checking _, _ => 4
  | .missed, _ => 5
  | _, some (.text (some none)) => 6
  | _, _ => 1

variable {Db : Type} {loadCard : Db → ProductId → Option (Option ProductCard)}
  {productId : ProductId} {before after state : State Db} {action : Action Db} {call : Call}
  {caller : Caller} {db : Db} {loaded : Option (Option ProductCard)} {fresh : Option ProductCard}
  {phase next : Phase} {answer : Answer} {draws : Draws} {rank : Phase → Option Answer → Nat}

def State.turns (rank : Phase → Option Answer → Nat) (call : Call) (state : State Db) : Nat :=
  (state.callers call).elim 0 fun caller => rank caller.phase caller.reply

theorem Waiting.turns_lt (hwaiting : Waiting phase (some answer))
    (hlooks : ∀ deadline, phase = .checking deadline → ∀ now, answer = .time now → now < deadline)
    (hresumes : Resumes ⟨true, true⟩ draws phase answer next) :
    turnsToLock next none < turnsToLock phase (some answer) := by
  cases hresumes
  case spent deadline now hnow => exact absurd (hlooks deadline rfl now rfl) hnow
  case missAlone hlookup hflight => cases hflight
  case stored token fresh ttlSec => exact absurd hwaiting id
  all_goals simp_all [Waiting, turnsToLock]

theorem Leading.turns_lt (hleading : Leading loaded phase (some answer))
    (hresumes : Resumes ⟨true, true⟩ draws phase answer next) :
    turnsToStore next none < turnsToStore phase (some answer) := by
  cases hresumes
  case loadFailed token => cases token <;> simp [Leading] at hleading
  case stored token fresh ttlSec => cases token <;> exact absurd hleading id
  all_goals simp_all [Leading, turnsToStore]

theorem Settled.turns_lt (hsettled : Settled fresh phase (some answer))
    (hlooks : ∀ deadline, phase = .checking deadline → ∀ now, answer = .time now → now < deadline)
    (hresumes : Resumes ⟨true, true⟩ draws phase answer next) :
    turnsToEnd next none < turnsToEnd phase (some answer) := by
  cases hresumes
  case spent deadline now hnow => exact absurd (hlooks deadline rfl now rfl) hnow
  case missAlone hlookup hflight => cases hflight
  case stored token card ttlSec => cases token <;> simp [finish, turnsToEnd]
  case hit reply value hlookup | pollHit deadline reply value hlookup =>
    obtain hnone | hmiss | hstored := hsettled
    · cases hnone
    · cases hmiss
      cases hlookup
    · cases hstored
      simp [turnsToEnd]
  case miss reply hlookup hflight | pollMiss deadline reply hlookup =>
    obtain hnone | hmiss | hstored := hsettled
    · cases hnone
    · cases hmiss
      simp [turnsToEnd]
    · cases hstored
      rw [lookup_stored] at hlookup
      cases hlookup
  all_goals simp_all [Settled, turnsToEnd]

/-! ### What a step is for one call -/

def isTurn (call : Call) (action : Action Db) : Prop := ∃ draws, action = .resume call draws

/-- A call has a turn, or an answer comes to it, or it does not notice. -/
theorem caller_step (hcalm : Calm loadCard productId before action)
    (hstep : step loadCard before action = some after)
    (hcaller : before.callers call = some caller) :
    (∃ draws answer next, action = .resume call draws ∧ caller.reply = some answer ∧
        Resumes caller.options draws caller.phase answer next ∧
        ∃ changed, after.callers call = some changed ∧ changed.phase = next ∧
          changed.reply = none) ∨
      ¬ isTurn call action ∧ (after.callers call = some caller ∨
        caller.reply = none ∧ ∃ request answer, caller.request = some request ∧
          ((∀ asked, request ≠ .loadCard asked) →
            answer = (before.redis.execute before.clock request).2) ∧
          ∃ changed, after.callers call = some changed ∧ changed.phase = caller.phase ∧
            changed.reply = some answer) := by
  cases action with
  | tick ms | commit db =>
      cases hstep
      exact .inr ⟨(fun ⟨_, hact⟩ => nomatch hact), .inl hcaller⟩
  | getCard other id options =>
      obtain ⟨hnone, rfl⟩ := getCard_spec hstep
      refine .inr ⟨(fun ⟨_, hact⟩ => nomatch hact),
        .inl ((Function.update_of_ne ?_ _ _).trans hcaller)⟩
      rintro rfl
      rw [hcaller] at hnone
      cases hnone
  | execute other =>
      refine .inr ⟨(fun ⟨_, hact⟩ => nomatch hact), ?_⟩
      obtain ⟨found, hfound, hreply, hcases⟩ := execute_spec hstep
      by_cases heq : call = other
      · subst heq
        obtain rfl : found = caller := Option.some.inj (hfound.symm.trans hcaller)
        right
        obtain ⟨asked, hrequest, rfl⟩ | ⟨request, hrequest, hother, rfl⟩ := hcases
        · exact ⟨hreply, _, _, hrequest, fun hasked => absurd rfl (hasked asked), _,
            Function.update_self _ _ _, rfl, rfl⟩
        · exact ⟨hreply, request, _, hrequest, fun _ => rfl, _, Function.update_self _ _ _,
            rfl, rfl⟩
      · left
        obtain ⟨asked, -, rfl⟩ | ⟨request, -, -, rfl⟩ := hcases
        · exact (Function.update_of_ne heq _ _).trans hcaller
        · exact (Function.update_of_ne heq _ _).trans hcaller
  | resume other draws =>
      obtain ⟨found, answer, next, hfound, hreply, hresumes, rfl⟩ := resumeCall_spec hstep
      by_cases heq : call = other
      · subst heq
        obtain rfl : found = caller := Option.some.inj (hfound.symm.trans hcaller)
        exact .inl ⟨draws, answer, next, rfl, hreply, hresumes, _, Function.update_self _ _ _,
          rfl, rfl⟩
      · refine .inr ⟨fun ⟨draws, hact⟩ => heq ?_,
          .inl ((Function.update_of_ne heq _ _).trans hcaller)⟩
        cases hact
        rfl
  | fail other | late index | del key => exact absurd hcalm id

/-- A rank that no answer makes greater, and every turn smaller. -/
theorem turns_step (hcalm : Calm loadCard productId before action)
    (hstep : step loadCard before action = some after) (hcaller : before.callers call = some caller)
    (hanswer : caller.reply = none → ∀ request answer, caller.request = some request →
      ((∀ asked, request ≠ .loadCard asked) →
        answer = (before.redis.execute before.clock request).2) →
      (∃ changed, after.callers call = some changed ∧ changed.phase = caller.phase ∧
        changed.reply = some answer) →
      rank caller.phase (some answer) ≤ rank caller.phase none)
    (hturn : ∀ draws answer next, action = .resume call draws → caller.reply = some answer →
      Resumes caller.options draws caller.phase answer next →
      rank next none < rank caller.phase (some answer)) :
    after.turns rank call ≤ before.turns rank call ∧
      (isTurn call action → after.turns rank call < before.turns rank call) := by
  have hbefore : before.turns rank call = rank caller.phase caller.reply := by
    rw [State.turns, hcaller]
    rfl
  obtain ⟨draws, answer, next, hact, hreply, hresumes, changed, hchanged, rfl, hnone⟩ |
      ⟨hno, hcases⟩ :=
    caller_step hcalm hstep hcaller
  · have hlt := hturn draws answer _ hact hreply hresumes
    rw [hbefore, hreply, State.turns, hchanged]
    change rank changed.phase changed.reply ≤ _ ∧ (_ → rank changed.phase changed.reply < _)
    rw [hnone]
    exact ⟨Nat.le_of_lt hlt, fun _ => hlt⟩
  · refine ⟨?_, fun hturn => absurd hturn hno⟩
    obtain hsame |
        ⟨hreply, request, answer, hrequest, heq, changed, hchanged, hphase, hanswered⟩ := hcases
    · rw [hbefore, State.turns, hsame]
      exact Nat.le_refl _
    · have hle := hanswer hreply request answer hrequest heq ⟨changed, hchanged, hphase, hanswered⟩
      rw [hbefore, hreply, State.turns, hchanged]
      change rank changed.phase changed.reply ≤ _
      rwa [hphase, hanswered]

theorem caller_stays (hcalm : Calm loadCard productId before action)
    (hstep : step loadCard before action = some after)
    (hcaller : before.callers call = some caller) :
    ∃ changed, after.callers call = some changed := by
  obtain ⟨-, -, -, -, -, -, changed, hchanged, -⟩ |
      ⟨-, hsame | ⟨-, -, -, -, -, changed, hchanged, -⟩⟩ :=
    caller_step hcalm hstep hcaller
  · exact ⟨changed, hchanged⟩
  · exact ⟨caller, hsame⟩
  · exact ⟨changed, hchanged⟩

/-- The first command for the lock is not refused. -/
theorem Cold.turnsToLock_le (hcold : Cold productId before none loaded) {answer : Answer}
    (hproduct : caller.productId = productId) {request : Request}
    (hrequest : caller.request = some request) (hanswer : (∀ asked, request ≠ .loadCard asked) →
      answer = (before.redis.execute before.clock request).2)
    (hwaiting : Waiting caller.phase (some answer)) :
    turnsToLock caller.phase (some answer) ≤ turnsToLock caller.phase none := by
  rw [Caller.request, hproduct] at hrequest
  generalize caller.phase = phase at hrequest hwaiting
  cases phase with
  | acquiring deadline token =>
      cases hrequest
      have hfree := hanswer (by simp)
      rw [Redis.execute, Redis.setNx, read_of_eq_none (hcold.free rfl)] at hfree
      subst hfree
      obtain hnone | hbusy := hwaiting
      · cases hnone
      · cases hbusy
  | _ => exact Nat.le_refl _

/-- The card is found by whoever looks for it. -/
theorem Warm.turnsToEnd_le (hwarm : Warm productId before fresh) {answer : Answer}
    (hproduct : caller.productId = productId) {request : Request}
    (hrequest : caller.request = some request) (hanswer : (∀ asked, request ≠ .loadCard asked) →
      answer = (before.redis.execute before.clock request).2)
    (hsettled : Settled fresh caller.phase none) :
    turnsToEnd caller.phase (some answer) ≤ turnsToEnd caller.phase none := by
  rw [Caller.request, hproduct] at hrequest
  generalize caller.phase = phase at hrequest hsettled
  cases phase with
  | looking | polling deadline =>
      cases hrequest
      have hread := hanswer (by simp)
      rw [Redis.execute, hwarm.read] at hread
      subst hread
      exact Nat.le_refl 1
  | direct | loading token => exact absurd hsettled id
  | _ => exact Nat.le_refl _

/-! ### What becomes of a call -/

/-- Each request of a call is executed and answered some time. -/
def Fair (path : Path (step loadCard) (Smooth loadCard productId) (.init db)) : Prop :=
  ∀ time call caller, (path.state time).callers call = some caller →
    (∀ outcome, caller.phase ≠ .finished outcome) →
    ∃ later ≥ time, ∃ draws, path.action later = some (.resume call draws)

variable {path : Path (step loadCard) (Smooth loadCard productId) (.init db)} {time : Nat}

theorem Fair.turn (hfair : Fair path) (hcaller : (path.state time).callers call = some caller)
    (hover : ∀ outcome, caller.phase ≠ .finished outcome) :
    ∃ later ≥ time, ∃ act, path.action later = some act ∧ isTurn call act := by
  obtain ⟨later, hlater, draws, hact⟩ := hfair time call caller hcaller hover
  exact ⟨later, hlater, _, hact, draws, rfl⟩

/-- Some call has the lock, or the card is stored. -/
def LockTaken (productId : ProductId) (state : State Db) : Prop :=
  (∃ leader loaded, Cold productId state (some leader) loaded) ∨ ∃ fresh, Warm productId state fresh

/-- Some call gets the lock once there is a call. -/
theorem Fair.lock_taken (hfair : Fair path)
    (hcaller : (path.state time).callers call = some caller) :
    ∃ later ≥ time, LockTaken productId (path.state later) := by
  obtain ⟨leader, loaded, hcold⟩ | hwarm := cold_or_warm_of_reach (path.reach time)
  case inr => exact ⟨time, Nat.le_refl time, .inr hwarm⟩
  cases leader with
  | some leader => exact ⟨time, Nat.le_refl time, .inl ⟨leader, loaded, hcold⟩⟩
  | none =>
      refine path.leads (fun state => (∃ loaded, Cold productId state none loaded) ∧
        ∃ caller, state.callers call = some caller) (LockTaken productId) (isTurn call)
        (State.turns turnsToLock call) ?_ ?_ ⟨⟨loaded, hcold⟩, caller, hcaller⟩
      · rintro before act after hreach ⟨⟨loaded, hcold⟩, caller, hcaller⟩ hok hstep
        obtain ⟨hproduct, hoptions⟩ := asked_of_reach hreach call caller hcaller
        obtain ⟨loaded', hnext⟩ | ⟨-, hnext⟩ | hnext := hcold.step (asked_of_reach hreach) hok hstep
        case inr.inl => exact .inl (.inl hnext)
        case inr.inr => exact .inl (.inr hnext)
        refine .inr ⟨⟨⟨loaded', hnext⟩, caller_stays hok.1 hstep hcaller⟩,
          turns_step hok.1 hstep hcaller ?_ ?_⟩
        · rintro hreply request answer hrequest hanswer ⟨changed, hchanged, hphase, hanswered⟩
          have hwaiting := (hnext.callers call changed hchanged).2 nofun
          rw [hphase, hanswered] at hwaiting
          exact hcold.turnsToLock_le hproduct hrequest hanswer hwaiting
        · rintro draws answer next rfl hreply hresumes
          have hwaiting := (hcold.callers call caller hcaller).2 nofun
          rw [hreply] at hwaiting
          rw [hoptions] at hresumes
          exact hwaiting.turns_lt (hok.2.now_lt hcaller hreply) hresumes
      · rintro time ⟨⟨loaded, hcold⟩, caller, hcaller⟩
        refine .inr (hfair.turn hcaller fun outcome hphase => ?_)
        have hwaiting := (hcold.callers call caller hcaller).2 nofun
        rw [hphase] at hwaiting
        exact hwaiting

/-- The call with the lock stores the card. -/
theorem Fair.stored (hfair : Fair path)
    (hcold : Cold productId (path.state time) (some call) loaded) :
    ∃ later ≥ time, ∃ fresh, Warm productId (path.state later) fresh := by
  refine path.leads (fun state => ∃ loaded, Cold productId state (some call) loaded)
    (fun state => ∃ fresh, Warm productId state fresh) (isTurn call) (State.turns turnsToStore call)
    ?_ ?_ ⟨loaded, hcold⟩
  · rintro before act after hreach ⟨loaded, hcold⟩ hok hstep
    obtain ⟨caller, hcaller⟩ := Option.ne_none_iff_exists'.mp (hcold.present call rfl)
    obtain ⟨loaded', hnext⟩ | ⟨hnone, -⟩ | hnext := hcold.step (asked_of_reach hreach) hok hstep
    case inr.inl => cases hnone
    case inr.inr => exact .inl hnext
    refine .inr ⟨⟨loaded', hnext⟩, turns_step hok.1 hstep hcaller ?_ ?_⟩
    · intro hreply request answer hrequest hanswer hchanged
      cases caller.phase <;> exact Nat.le_refl _
    · rintro draws answer next - hreply hresumes
      have hleading := (hcold.callers call caller hcaller).1 rfl
      rw [hreply] at hleading
      rw [(asked_of_reach hreach call caller hcaller).2] at hresumes
      exact hleading.turns_lt hresumes
  · rintro time ⟨loaded, hcold⟩
    obtain ⟨caller, hcaller⟩ := Option.ne_none_iff_exists'.mp (hcold.present call rfl)
    refine .inr (hfair.turn hcaller fun outcome hphase => ?_)
    have hleading := (hcold.callers call caller hcaller).1 rfl
    rw [hphase] at hleading
    exact hleading

/-- With the card stored, a call ends. -/
theorem Fair.finished (hfair : Fair path) (hwarm : Warm productId (path.state time) fresh)
    (hcaller : (path.state time).callers call = some caller) :
    ∃ later ≥ time, ∃ caller outcome, (path.state later).callers call = some caller ∧
      caller.phase = .finished outcome := by
  refine path.leads (fun state => Warm productId state fresh ∧
    ∃ caller, state.callers call = some caller)
    (fun state => ∃ caller outcome, state.callers call = some caller ∧
      caller.phase = .finished outcome)
    (isTurn call) (State.turns turnsToEnd call) ?_ ?_ ⟨hwarm, caller, hcaller⟩
  · rintro before act after hreach ⟨hwarm, caller, hcaller⟩ hok hstep
    obtain ⟨hproduct, hoptions⟩ := asked_of_reach hreach call caller hcaller
    have hsettled := hwarm.settled call caller hcaller
    refine .inr ⟨⟨hwarm.step (asked_of_reach hreach) hok hstep, caller_stays hok.1 hstep hcaller⟩,
      turns_step hok.1 hstep hcaller ?_ ?_⟩
    · intro hreply request answer hrequest hanswer _
      rw [hreply] at hsettled
      exact hwarm.turnsToEnd_le hproduct hrequest hanswer hsettled
    · rintro draws answer next rfl hreply hresumes
      rw [hreply] at hsettled
      rw [hoptions] at hresumes
      exact hsettled.turns_lt (hok.2.now_lt hcaller hreply) hresumes
  · rintro time ⟨-, caller, hcaller⟩
    by_cases hover : ∃ outcome, caller.phase = .finished outcome
    · obtain ⟨outcome, hphase⟩ := hover
      exact .inl ⟨caller, outcome, hcaller, hphase⟩
    · exact .inr (hfair.turn hcaller fun outcome hphase => hover ⟨outcome, hphase⟩)

theorem caller_stays_on_path {later : Nat} (hle : time ≤ later)
    (hcaller : (path.state time).callers call = some caller) :
    ∃ changed, (path.state later).callers call = some changed := by
  refine path.stays (fun state => ∃ changed, state.callers call = some changed) ?_ hle
    ⟨caller, hcaller⟩
  rintro before act after - ⟨caller, hcaller⟩ hok hstep
  exact caller_stays hok.1 hstep hcaller

theorem started_of_reach (hreach : Reach (step loadCard) (Smooth loadCard productId)
      (.init db) state) :
    ∀ call caller, state.callers call = some caller → call ∈ state.started := by
  refine hreach.invariant (fun state => ∀ call caller, state.callers call = some caller →
    call ∈ state.started) (fun call caller hcaller => by cases hcaller) ?_
  intro before action after _ hinv hok hstep
  cases action with
  | tick ms | commit db =>
      cases hstep
      exact hinv
  | getCard call id options =>
      obtain ⟨-, rfl⟩ := getCard_spec hstep
      refine State.forall_put (List.mem_append_right _ List.mem_cons_self)
        fun other found _ hfound => ?_
      exact List.mem_append_left _ (hinv other found hfound)
  | execute call =>
      obtain ⟨caller, hcaller, -, ⟨asked, -, rfl⟩ | ⟨request, -, -, rfl⟩⟩ := execute_spec hstep
      · exact State.forall_put (hinv call caller hcaller) fun other found _ hfound =>
          hinv other found hfound
      · exact State.forall_put (hinv call caller hcaller) fun other found _ hfound =>
          hinv other found hfound
  | resume call draws =>
      obtain ⟨caller, answer, next, hcaller, -, -, rfl⟩ := resumeCall_spec hstep
      exact State.forall_put (hinv call caller hcaller) fun other found _ hfound =>
        hinv other found hfound
  | fail call | late index | del key => exact absurd hok.1 id

/-- A run at whose end all calls are over leaves none of them waiting. -/
theorem exists_fair_path {actions : List (Action Db)} {finish : State Db}
    (hrun : runWithin (step loadCard) (Smooth loadCard productId) (.init db) actions = some finish)
    (hover : ∀ call caller, finish.callers call = some caller →
      ∃ outcome, caller.phase = .finished outcome) :
    ∃ path : Path (step loadCard) (Smooth loadCard productId) (.init db), Fair path ∧
      ∀ time ≥ actions.length, path.state time = finish := by
  obtain ⟨path, hpath⟩ := exists_path_of_runWithin hrun
  refine ⟨path, fun time call caller hcaller hphase => ?_, hpath⟩
  by_contra hnever
  -- Without a turn the call stays where it is.
  have hstays : ∀ later ≥ time, ∃ changed, (path.state later).callers call = some changed ∧
      changed.phase = caller.phase := by
    intro later hle
    induction hle with
    | refl => exact ⟨caller, hcaller, rfl⟩
    | @step later hle ih =>
        obtain ⟨changed, hchanged, hsame⟩ := ih
        cases hact : path.action later with
        | none =>
            rw [path.idle later hact]
            exact ⟨changed, hchanged, hsame⟩
        | some act =>
            obtain ⟨hok, hstep⟩ := path.taken later act hact
            obtain ⟨draws, -, -, rfl, -⟩ |
                ⟨-, hnext | ⟨-, -, -, -, -, next, hnext, hnextPhase, -⟩⟩ :=
              caller_step hok.1 hstep hchanged
            · exact absurd ⟨later, hle, draws, hact⟩ hnever
            · exact ⟨changed, hnext, hsame⟩
            · exact ⟨next, hnext, hnextPhase.trans hsame⟩
  obtain ⟨changed, hchanged, hsame⟩ := hstays (time + actions.length) (Nat.le_add_right _ _)
  rw [hpath _ (Nat.le_add_left _ _)] at hchanged
  obtain ⟨outcome, hend⟩ := hover call changed hchanged
  exact hphase outcome (hsame.symm.trans hend)

/-- With Redis and the database there, nothing deleted or expired, and every call looking at the
cache once more after the store, `loadCard` is executed once and every call returns its result. -/
theorem getCard_singleFlight {Db : Type} (loadCard : Db → ProductId → Option (Option ProductCard))
    (productId : ProductId) (db : Db) :
    (∀ state, Reach (step loadCard) (Smooth loadCard productId) (.init db) state →
      OneFlight productId state) ∧
    ∀ path : Path (step loadCard) (Smooth loadCard productId) (.init db), Fair path →
      ∀ time call caller, (path.state time).callers call = some caller →
        ∃ later ≥ time, ∃ caller fresh, (path.state later).callers call = some caller ∧
          caller.phase = .finished (.returned (ofCard fresh)) ∧
          (path.state later).loads = [(productId, some fresh)] := by
  refine ⟨fun state hreach => oneFlight_of_reach hreach,
    fun path hfair time call caller hcaller => ?_⟩
  obtain ⟨second, hsecond, htaken⟩ := hfair.lock_taken hcaller
  obtain ⟨third, hthird, fresh, hwarm⟩ : ∃ third ≥ second, ∃ fresh,
      Warm productId (path.state third) fresh := by
    obtain ⟨leader, loaded, hcold⟩ | hwarm := htaken
    · exact hfair.stored hcold
    · exact ⟨second, Nat.le_refl second, hwarm⟩
  obtain ⟨changed, hchanged⟩ := caller_stays_on_path (Nat.le_trans hsecond hthird) hcaller
  obtain ⟨later, hlater, last, outcome, hlast, hphase⟩ := hfair.finished hwarm hchanged
  obtain ⟨fresh, hloads, rfl⟩ :=
    (oneFlight_of_reach (path.reach later)).finished call last outcome hlast hphase
  exact ⟨later, by omega, last, fresh, hlast, hphase, hloads⟩

def turnsOf (call : Call) (count : Nat) : List (Action Bool) :=
  (List.replicate count (turnOf call ⟨['t'], 0⟩)).flatten

/-- A call finds the lock taken, waits, and finds the card of the other one. -/
def waiterTrace : List (Action Bool) :=
  [.getCard 0 3 ⟨true, true⟩, .getCard 1 3 ⟨true, true⟩] ++ turnsOf 0 4 ++ turnsOf 1 4 ++
  turnsOf 0 4 ++ turnsOf 1 2

theorem getCard_singleFlight_waiter :
    ∃ path : Path (step lampCards) (Smooth lampCards 3) (.init true), Fair path ∧
      ∃ time caller fresh, (path.state time).callers 1 = some caller ∧
        caller.phase = .finished (.returned (ofCard fresh)) ∧
          (path.state time).loads = [(3, some fresh)] := by
  have hrun : ((runWithin (step lampCards) (Smooth lampCards 3) (.init true) waiterTrace).any
      fun state =>
      decide (state.started = [0, 1] ∧ ∀ call ∈ state.started, ∃ caller ∈ state.callers call,
        caller.phase = .finished (.returned (ofCard (some lampCard))))) = true := by
    decide +kernel
  obtain ⟨finish, hfinish, hcheck⟩ := (Option.any_eq_true _ _).mp hrun
  obtain ⟨hstarted, hover⟩ := of_decide_eq_true hcheck
  obtain ⟨path, hfair, hpath⟩ := exists_fair_path hfinish fun call caller hcaller => by
    obtain ⟨found, hfound, hphase⟩ :=
      hover call (started_of_reach (reach_of_runWithin hfinish) call caller hcaller)
    obtain rfl : caller = found := Option.some.inj (hcaller.symm.trans hfound)
    exact ⟨_, hphase⟩
  obtain ⟨caller, hcaller, -⟩ := hover 1 (by simp [hstarted])
  rw [← hpath waiterTrace.length (Nat.le_refl _)] at hcaller
  obtain ⟨time, -, last, fresh, hlast⟩ :=
    (getCard_singleFlight lampCards 3 true).2 path hfair waiterTrace.length 1 caller hcaller
  exact ⟨path, hfair, time, last, fresh, hlast⟩

/-- A call looks at the cache just before the store, and next at the clock when its budget is
spent. -/
def lateWaiterTrace : List (Action Bool) :=
  [.getCard 0 3 ⟨true, true⟩, .getCard 1 3 ⟨true, true⟩] ++ turnsOf 0 5 ++ turnsOf 1 5 ++
    [.tick 1996, .execute 1] ++ turnsOf 0 3 ++ [.resume 1 ⟨['u'], 0⟩, .tick 4] ++ turnsOf 1 3

/-- The load and the store are done before the wait budget of the other call ends, and it asks the
database all the same. -/
theorem lateWaiter_loads_again : ¬ ∀ state, Reach (step lampCards)
    (fun state action => Calm lampCards 3 state action ∧ BudgetsOutlast 3 state action)
    (.init true) state →
    OneFlight 3 state := by
  intro hall
  obtain ⟨state, hreach, hcheck⟩ : ∃ state, Reach (step lampCards)
      (fun state action => Calm lampCards 3 state action ∧ BudgetsOutlast 3 state action)
      (.init true) state ∧
        decide (state.loads.length = 2) = true :=
    exists_reach_of_runWithin lateWaiterTrace (by decide +kernel)
  have htwo : state.loads.length = 2 := of_decide_eq_true hcheck
  have hone := (hall state hreach).loads
  omega

end Marketplace.Cards
