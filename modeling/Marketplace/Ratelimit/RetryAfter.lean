import Marketplace.Ratelimit.SlidingWindowExact

/-!
# `Retry-After`

The sorted set is ordered by its scores, so its first member is the oldest call of a full window:
the one that has to leave before another is let in. A refusal tells when that is, in whole seconds.
-/

namespace Marketplace.Ratelimit

open Transition SlidingWindow ZSet

variable {options : SlidingWindowOptions} {state after : State} {call : Consume}

instance : Std.Total zsetLe where
  total left right := by
    unfold zsetLe
    rcases Int.lt_trichotomy left.2 right.2 with hlt | heq | hgt
    · exact .inl (.inl hlt)
    · exact (le_total left.1 right.1).imp (fun hle => .inr ⟨heq, hle⟩) fun hle =>
        .inr ⟨heq.symm, hle⟩
    · exact .inr (.inl hgt)

instance : IsTrans (Text × Int) zsetLe where
  trans left middle right hleft hright := by
    unfold zsetLe at hleft hright ⊢
    rcases hleft with hlt | ⟨heq, hle⟩ <;> rcases hright with hlt' | ⟨heq', hle'⟩
    · exact .inl (Int.lt_trans hlt hlt')
    · exact .inl (heq' ▸ hlt)
    · exact .inl (heq ▸ hlt')
    · exact .inr ⟨heq.trans heq', le_trans hle hle'⟩

theorem score_le_of_zsetLe {left right : Text × Int} (hle : zsetLe left right) :
    left.2 ≤ right.2 := by
  obtain hlt | ⟨heq, -⟩ := hle
  · exact Int.le_of_lt hlt
  · exact Int.le_of_eq heq

/-! ### The members of a set are in the order of their scores -/

def Sorted (set : Option ZSet) : Prop := (entries set).Pairwise zsetLe

variable {set : Option ZSet}

theorem sorted_none : Sorted none := List.Pairwise.nil

theorem Sorted.alive (hsorted : Sorted set) (now : Int) : Sorted (alive set now) := by
  unfold ZSet.alive
  cases set with
  | none => exact sorted_none
  | some set =>
      rw [Option.filter_some]
      split
      · exact hsorted
      · exact sorted_none

theorem Sorted.zremrangebyscore (hsorted : Sorted set) (max : Int) :
    Sorted (zremrangebyscore set max) := by
  unfold Sorted
  rw [entries_zremrangebyscore]
  exact List.Pairwise.filter _ hsorted

theorem Sorted.zadd (hsorted : Sorted set) (score deadline : Int) (member : Text) :
    Sorted (some ((zadd set score member).pexpire deadline)) :=
  List.Pairwise.orderedInsert _ _ (List.Pairwise.filter _ hsorted)

theorem Sorted.trimmed (hsorted : ∀ key, Sorted (state.redis key)) :
    Sorted (trimmed options state call) :=
  ((hsorted _).alive _).zremrangebyscore _

theorem Sorted.update {redis : Redis} (hset : Sorted set) (hsorted : ∀ key, Sorted (redis key))
    (changed : Text) : ∀ key, Sorted (Function.update redis changed set key) := by
  intro key
  by_cases hkey : key = changed
  · rwa [hkey, Function.update_self]
  · rw [Function.update_of_ne hkey]
    exact hsorted key

theorem sorted_step (hlimit : 1 ≤ options.limit) (hsorted : ∀ key, Sorted (state.redis key))
    (hstep : step options state call = some after) : ∀ key, Sorted (after.redis key) := by
  obtain ⟨-, -, ⟨-, hredis, -⟩ | ⟨-, oldest, -, hredis, -⟩⟩ := step_cases hlimit hstep
  · rw [hredis]
    exact Sorted.update ((Sorted.trimmed hsorted).zadd _ _ _) hsorted _
  · rw [hredis]
    exact Sorted.update (Sorted.trimmed hsorted) hsorted _

theorem sorted_reach (hlimit : 1 ≤ options.limit)
    (hreach : Reach (step options) UniqueMember State.init state) :
    ∀ key, Sorted (state.redis key) :=
  hreach.invariant (fun state => ∀ key, Sorted (state.redis key)) (fun _ => sorted_none)
    fun _ _ _ _ hsorted _ hstep => sorted_step hlimit hsorted hstep

theorem zrangeFirst_le (hsorted : Sorted set) {oldest : Text × Int}
    (holdest : zrangeFirst set = some oldest) : ∀ entry ∈ entries set, oldest.2 ≤ entry.2 := by
  intro entry hentry
  obtain ⟨rest, hentries⟩ := List.head?_eq_some_iff.mp holdest
  unfold Sorted at hsorted
  rw [hentries] at hsorted hentry
  rcases List.mem_cons.mp hentry with rfl | hrest
  · exact Int.le_refl _
  · exact score_le_of_zsetLe ((List.pairwise_cons.mp hsorted).1 entry hrest)

/-! ### What a refusal tells -/

def Answer.RefusedFor (answer : Answer) (retryAfterSec : Int) : Prop :=
  ∃ result, answer.result = some result ∧ result.allowed = false ∧
    result.retryAfterSec = retryAfterSec

theorem Answer.RefusedFor.not_allowed {answer : Answer} {retryAfterSec : Int}
    (hrefused : answer.RefusedFor retryAfterSec) : answer.allowed = false := by
  obtain ⟨result, hresult, hallowed, -⟩ := hrefused
  rw [Answer.allowed, hresult, Option.any_some, hallowed]

/-- The seconds of a refusal at `now`, rounded up. -/
def waitFor (options : SlidingWindowOptions) (oldest : Answer) (now : Int) : Int :=
  max 1 ((oldest.time + options.windowMs - now + 999) / 1000)

/-- The seconds of a refusal are those until the oldest call of the window leaves it. -/
def TellsOldest (options : SlidingWindowOptions) (earlier : List Answer) (answer : Answer) : Prop :=
  ∀ retryAfterSec, answer.RefusedFor retryAfterSec →
    ∃ oldest ∈ allowedBetween earlier answer.id (answer.time - options.windowMs) answer.time,
      (∀ other ∈ allowedBetween earlier answer.id (answer.time - options.windowMs) answer.time,
        oldest.time ≤ other.time) ∧
      retryAfterSec = waitFor options oldest answer.time

/-- The first member of the trimmed set is the oldest call of the window. -/
theorem exists_oldest (hinv : Inv options state) (hclock : state.clock ≤ call.micros)
    (hsorted : ∀ key, Sorted (state.redis key)) {entry : Text × Int}
    (hentry : zrangeFirst (trimmed options state call) = some entry) :
    ∃ oldest ∈ allowedBetween state.answers call.id (redisNow call.micros - options.windowMs)
        (redisNow call.micros),
      (∀ other ∈ allowedBetween state.answers call.id (redisNow call.micros - options.windowMs)
        (redisNow call.micros), oldest.time ≤ other.time) ∧ oldest.time = entry.2 := by
  have hperm := perm_entries_trimmed hinv hclock
  have hlogged : ∀ logged, logged ∈ entries (trimmed options state call) ↔
      ∃ answer ∈ allowedBetween state.answers call.id
        (redisNow call.micros - options.windowMs) (redisNow call.micros),
        answer.entry = logged := by
    intro logged
    rw [hperm.mem_iff, loggedSince, allowedBetween,
      between_eq_filter Answer.time fun answer => time_le_of_mem hinv hclock, List.filter_map,
      List.mem_map]
    rfl
  obtain ⟨oldest, holdest, heq⟩ := (hlogged entry).mp (List.mem_of_mem_head? hentry)
  refine ⟨oldest, holdest, ?_, congrArg Prod.snd heq⟩
  intro other hother
  have hle := zrangeFirst_le (Sorted.trimmed hsorted) hentry other.entry
    ((hlogged other.entry).mpr ⟨other, hother, rfl⟩)
  rwa [← heq] at hle

theorem tellsOldest_step (hlimit : 1 ≤ options.limit) (hinv : Inv options state)
    (hsorted : ∀ key, Sorted (state.redis key)) (hstep : step options state call = some after) :
    ∃ answer, after.answers = state.answers ++ [answer] ∧
      TellsOldest options state.answers answer := by
  obtain ⟨hclock, -, ⟨-, -, hanswers⟩ | ⟨-, entry, hentry, -, hanswers⟩⟩ := step_cases hlimit hstep
  · refine ⟨_, hanswers, ?_⟩
    intro retryAfterSec hrefused
    have hallowed := hrefused.not_allowed
    simp [Answer.allowed] at hallowed
  · refine ⟨_, hanswers, ?_⟩
    rintro retryAfterSec ⟨result, hresult, -, rfl⟩
    obtain ⟨oldest, holdest, hleast, htime⟩ := exists_oldest hinv hclock hsorted hentry
    refine ⟨oldest, holdest, hleast, ?_⟩
    rw [waitFor, htime, ← Option.some.inj hresult]
    rfl

/-! ### A later call -/

/-- A run of calls in which every answer is exact, tells of the oldest call and is not before
another. -/
structure Honest (options : SlidingWindowOptions) (answers : List Answer) : Prop where
  exact : ∀ earlier answer later, answers = earlier ++ answer :: later →
    IsExact options earlier answer
  oldest : ∀ earlier answer later, answers = earlier ++ answer :: later →
    TellsOldest options earlier answer
  times : ∀ earlier answer later, answers = earlier ++ answer :: later →
    ∀ other ∈ earlier, other.time ≤ answer.time
  bounded : ∀ id, Bounded Answer.time options.limit options.windowMs (allowedLog answers id)

theorem honest_reach (hlimit : 1 ≤ options.limit) (hwindow : 1 ≤ options.windowMs)
    (hreach : Reach (step options) UniqueMember State.init state) :
    Honest options state.answers where
  exact := hreach.forall_entry rfl fun _ _ _ hstate _ hstep =>
    isExact_step hlimit hwindow (inv_reach hlimit hstate) hstep
  oldest := hreach.forall_entry rfl fun _ _ _ hstate _ hstep =>
    tellsOldest_step hlimit (inv_reach hlimit hstate) (sorted_reach hlimit hstate) hstep
  times := hreach.forall_entry rfl fun before call after hstate _ hstep => by
    have hinv := inv_reach hlimit hstate
    obtain ⟨hclock, -, ⟨-, -, hanswers⟩ | ⟨-, entry, -, -, hanswers⟩⟩ := step_cases hlimit hstep
    all_goals
      refine ⟨_, hanswers, fun other hother => ?_⟩
      exact redisNow_mono (Nat.le_trans (hinv.clock other hother) hclock)
  bounded := (inv_reach hlimit hreach).bounded

variable {answers earlier middle rest : List Answer} {denied later : Answer} {retryAfterSec : Int}

theorem allowedLog_refused (hrefused : denied.RefusedFor retryAfterSec) (id : Text) :
    allowedLog (earlier ++ denied :: middle) id = allowedLog earlier id ++
      allowedLog middle id := by
  unfold allowedLog
  rw [List.filter_append, List.filter_cons_of_neg (by simp [hrefused.not_allowed])]

/-- The facts about a refusal and a later call for its id that both bounds rest on. -/
theorem Honest.pair (hhonest : Honest options answers)
    (hanswers : answers = earlier ++ denied :: middle ++ later :: rest) :
    TellsOldest options earlier denied ∧ IsExact options earlier denied ∧
      IsExact options (earlier ++ denied :: middle) later ∧ denied.time ≤ later.time ∧
      ∀ answer ∈ allowedLog earlier denied.id, answer.time ≤ denied.time := by
  have hfirst : answers = earlier ++ denied :: (middle ++ later :: rest) := by
    rw [hanswers, List.append_assoc, List.cons_append]
  refine ⟨hhonest.oldest _ _ _ hfirst, hhonest.exact _ _ _ hfirst, hhonest.exact _ _ _ hanswers,
    hhonest.times _ _ _ hanswers denied (by simp), ?_⟩
  intro answer hanswer
  exact hhonest.times _ _ _ hfirst answer (List.mem_of_mem_filter hanswer)

theorem le_wait (options : SlidingWindowOptions) (oldest : Answer) (now : Int) :
    oldest.time + options.windowMs ≤ now + 1000 * waitFor options oldest now := by
  unfold waitFor
  omega

theorem wait_le {oldest : Answer} {now : Int} (hleft : now < oldest.time + options.windowMs) :
    now + 1000 * (waitFor options oldest now - 1) < oldest.time + options.windowMs := by
  unfold waitFor
  omega

/-- From the announced second on there is room, if nobody else has taken it. -/
theorem Honest.allowed (hhonest : Honest options answers)
    (hanswers : answers = earlier ++ denied :: middle ++ later :: rest)
    (hrefused : denied.RefusedFor retryAfterSec) (hid : later.id = denied.id)
    (halone : ∀ other ∈ middle, other.id = denied.id → other.allowed = false)
    (hlate : denied.time + 1000 * retryAfterSec ≤ later.time) : later.allowed = true := by
  obtain ⟨htells, hexact, hlater, htime, hle⟩ := hhonest.pair hanswers
  obtain ⟨oldest, holdest, -, rfl⟩ := htells _ hrefused
  obtain ⟨result, hresult, hverdict, -⟩ := hlater
  rw [Answer.allowed, hresult, Option.any_some, hverdict, hid, allowedBetween,
    allowedLog_refused hrefused]
  have hnone : allowedLog middle denied.id = [] := by
    unfold allowedLog
    rw [List.filter_eq_nil_iff]
    intro other hother hin
    rw [Bool.and_eq_true, decide_eq_true_eq] at hin
    exact Bool.false_ne_true ((halone other hother hin.1).symm.trans hin.2)
  rw [hnone, List.append_nil]
  have hleave : oldest.time + options.windowMs ≤ later.time :=
    Int.le_trans (le_wait options oldest denied.time) hlate
  have hroom := length_between_lt Answer.time hle holdest htime hleave
  have hbound := hhonest.bounded denied.id (denied.time - options.windowMs)
  rw [Int.sub_add_cancel, hanswers, List.append_assoc, List.cons_append,
    allowedLog_refused hrefused, between_append, List.length_append] at hbound
  omega

/-- Before it the oldest call of the window has not left, whoever else has come. -/
theorem Honest.refused (hhonest : Honest options answers)
    (hanswers : answers = earlier ++ denied :: middle ++ later :: rest)
    (hrefused : denied.RefusedFor retryAfterSec) (hid : later.id = denied.id)
    (hsoon : later.time ≤ denied.time + 1000 * (retryAfterSec - 1)) :
    ∃ again, later.RefusedFor again := by
  obtain ⟨htells, hexact, hlater, htime, hle⟩ := hhonest.pair hanswers
  obtain ⟨oldest, holdest, hleast, rfl⟩ := htells _ hrefused
  obtain ⟨result, hresult, hverdict, -⟩ := hlater
  refine ⟨result.retryAfterSec, result, hresult, ?_, rfl⟩
  rw [Bool.eq_false_iff, ne_eq, hverdict, hid, allowedBetween, allowedLog_refused hrefused]
  have hin := (List.mem_filter.mp holdest).2
  rw [Bool.and_eq_true, decide_eq_true_eq, decide_eq_true_eq] at hin
  have hleft : denied.time < oldest.time + options.windowMs := by omega
  have hfull := length_between_le Answer.time (allowedLog middle denied.id) hleast htime
    (Int.lt_of_le_of_lt hsoon (wait_le hleft))
  obtain ⟨result', hresult', hverdict', -⟩ := hexact
  have hdenied := hrefused.not_allowed
  rw [Answer.allowed, hresult', Option.any_some, Bool.eq_false_iff, ne_eq, hverdict',
    allowedBetween] at hdenied
  omega

/-- What `Retry-After` promises: the least number of whole seconds after which a call gets in. -/
structure HonestRetry (answers : List Answer) : Prop where
  pos : ∀ denied ∈ answers, ∀ retryAfterSec, denied.RefusedFor retryAfterSec → 1 ≤ retryAfterSec
  enough : ∀ earlier denied middle later rest retryAfterSec,
    answers = earlier ++ denied :: middle ++ later :: rest → denied.RefusedFor retryAfterSec →
    later.id = denied.id → (∀ other ∈ middle, other.id = denied.id → other.allowed = false) →
    denied.time + 1000 * retryAfterSec ≤ later.time → later.allowed = true
  least : ∀ earlier denied middle later rest retryAfterSec,
    answers = earlier ++ denied :: middle ++ later :: rest → denied.RefusedFor retryAfterSec →
    later.id = denied.id → later.time ≤ denied.time + 1000 * (retryAfterSec - 1) →
    ∃ again, later.RefusedFor again

/-- The `Retry-After` of a refusal is honest. -/
theorem consume_retryAfter (options : SlidingWindowOptions) (hlimit : 1 ≤ options.limit)
    (hwindow : 1 ≤ options.windowMs) {state : State}
    (hreach : Reach (step options) UniqueMember State.init state) : HonestRetry state.answers := by
  have hhonest := honest_reach hlimit hwindow hreach
  refine
    { pos := ?_
      enough := fun _ _ _ _ _ _ => hhonest.allowed
      least := fun _ _ _ _ _ _ => hhonest.refused }
  intro denied hdenied retryAfterSec hrefused
  obtain ⟨earlier, later, hanswers⟩ := List.append_of_mem hdenied
  obtain ⟨oldest, -, -, rfl⟩ := hhonest.oldest earlier denied later hanswers _ hrefused
  exact Int.le_max_left ..

/-- The window of 2.5 s is full until 7500 ms: a refusal at 5400 ms tells 3 s, since after 2 s there
is no room yet. -/
def patientTrace : List Consume :=
  [⟨['a'], 5000000, ['1']⟩, ⟨['a'], 5400000, ['2']⟩, ⟨['a'], 7400000, ['3']⟩,
    ⟨['a'], 8400000, ['4']⟩]

def patientOptions : SlidingWindowOptions := ⟨1, 2500, ['r', 'l'], true⟩

theorem consume_retryAfter_patient :
    ∃ state, Reach (step patientOptions) UniqueMember State.init state ∧
      state.answers.map Answer.result =
        [some ⟨true, 0, 0⟩, some ⟨false, 0, 3⟩, some ⟨false, 0, 1⟩, some ⟨true, 0, 0⟩] ∧
      HonestRetry state.answers := by
  obtain ⟨state, hreach, hcheck⟩ : ∃ state,
      Reach (step patientOptions) UniqueMember State.init state ∧
      decide (state.answers.map Answer.result =
        [some ⟨true, 0, 0⟩, some ⟨false, 0, 3⟩, some ⟨false, 0, 1⟩, some ⟨true, 0, 0⟩]) = true :=
    exists_reach_of_runWithin patientTrace (by decide +kernel)
  exact ⟨state, hreach, of_decide_eq_true hcheck,
    consume_retryAfter patientOptions (by decide) (by decide) hreach⟩

end Marketplace.Ratelimit
