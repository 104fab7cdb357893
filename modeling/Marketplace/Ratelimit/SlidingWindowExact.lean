import Marketplace.Ratelimit.SlidingWindowLimiter

/-!
# The limiter is an exact sliding window

The sorted set is trimmed, extended and expired by the script; the plain log of the allowed calls is
not. At every later time both hold the same calls of the window that ends there, so the verdicts are
those of the plain log.
-/

namespace Marketplace.Ratelimit

open Transition SlidingWindow ZSet

variable {options : SlidingWindowOptions} {state after : State} {call : Consume} {id : Text}

/-- The plain log: the allowed calls of an id, in the order in which they ran. -/
def allowedLog (answers : List Answer) (id : Text) : List Answer :=
  answers.filter fun answer => answer.id = id && answer.allowed

/-- The allowed calls of an id at times in `(lo, hi]`. -/
def allowedBetween (answers : List Answer) (id : Text) (lo hi : Int) : List Answer :=
  between Answer.time (allowedLog answers id) lo hi

def Answer.entry (answer : Answer) : Text × Int := (answer.member, answer.time)

/-- What a sorted set without trimming and expiry would hold of a window. -/
def loggedSince (answers : List Answer) (id : Text) (lo : Int) : List (Text × Int) :=
  ((allowedLog answers id).map Answer.entry).filter fun entry => lo < entry.2

def rememberedSince (set : Option ZSet) (later lo : Int) : List (Text × Int) :=
  (entries (alive set later)).filter fun entry => lo < entry.2

structure Inv (options : SlidingWindowOptions) (state : State) : Prop where
  clock : ∀ answer ∈ state.answers, answer.micros ≤ state.clock
  remembers : ∀ id later, redisNow state.clock ≤ later →
    (rememberedSince (state.redis (options.key id)) later (later - options.windowMs)).Perm
      (loggedSince state.answers id (later - options.windowMs))
  bounded : ∀ id, Bounded Answer.time options.limit options.windowMs (allowedLog state.answers id)

theorem inv_init (hlimit : 1 ≤ options.limit) : Inv options State.init where
  clock _ hanswer := absurd hanswer List.not_mem_nil
  remembers _ _ _ := List.Perm.nil
  bounded _ := bounded_nil Answer.time (by omega)

theorem allowedLog_append (answers : List Answer) (answer : Answer) (id : Text) :
    allowedLog (answers ++ [answer]) id =
      allowedLog answers id ++ if answer.id = id && answer.allowed then [answer] else [] := by
  unfold allowedLog
  rw [List.filter_append, List.filter_cons, List.filter_nil]

theorem key_injective {left right : Text} (heq : options.key left = options.key right) :
    left = right :=
  (List.cons.inj (List.append_cancel_left heq)).2

theorem time_le_of_mem (hinv : Inv options state) (hclock : state.clock ≤ call.micros)
    {answer : Answer} (hanswer : answer ∈ allowedLog state.answers id) :
    answer.time ≤ redisNow call.micros :=
  redisNow_mono (Nat.le_trans (hinv.clock answer (List.mem_of_mem_filter hanswer)) hclock)

/-- The set after `ZREMRANGEBYSCORE`. -/
def trimmed (options : SlidingWindowOptions) (state : State) (call : Consume) : Option ZSet :=
  zremrangebyscore (alive (state.redis (options.key call.id)) (redisNow call.micros))
    (redisNow call.micros - options.windowMs)

theorem entries_trimmed :
    entries (trimmed options state call) = rememberedSince (state.redis (options.key call.id))
      (redisNow call.micros) (redisNow call.micros - options.windowMs) :=
  entries_zremrangebyscore

theorem perm_entries_trimmed (hinv : Inv options state) (hclock : state.clock ≤ call.micros) :
    (entries (trimmed options state call)).Perm
      (loggedSince state.answers call.id (redisNow call.micros - options.windowMs)) := by
  rw [entries_trimmed]
  exact hinv.remembers call.id _ (redisNow_mono hclock)

/-- `ZCARD` counts the allowed calls of the window. -/
theorem zcard_trimmed (hinv : Inv options state) (hclock : state.clock ≤ call.micros) :
    zcard (trimmed options state call) = (allowedBetween state.answers call.id
      (redisNow call.micros - options.windowMs) (redisNow call.micros)).length := by
  have hlength := (perm_entries_trimmed hinv hclock).length_eq
  rw [allowedBetween, between_eq_filter Answer.time fun answer => time_le_of_mem hinv hclock, zcard,
    hlength, loggedSince, List.filter_map, List.length_map]
  rfl

theorem consume_allowed (hroom : zcard (trimmed options state call) < options.limit) :
    consume options state.redis call =
      (Function.update state.redis (options.key call.id)
        (some ((zadd (trimmed options state call) (redisNow call.micros) call.member).pexpire
          (redisNow call.micros + options.windowMs))),
        some ⟨true, options.limit - zcard (trimmed options state call) - 1, 0⟩) := by
  rw [trimmed] at hroom
  simp only [consume, slidingWindowLua, hroom, if_true]
  rfl

/-- A full window is not empty, so there is an oldest call to wait for. -/
theorem consume_denied (hlimit : 1 ≤ options.limit)
    (hfull : options.limit ≤ zcard (trimmed options state call)) :
    ∃ oldest, zrangeFirst (trimmed options state call) = some oldest ∧
      consume options state.redis call =
        (Function.update state.redis (options.key call.id) (trimmed options state call),
          some ⟨false, 0,
            max 1 ((oldest.2 + options.windowMs - redisNow call.micros + 999) / 1000)⟩) := by
  have hfirst : ∃ oldest, zrangeFirst (trimmed options state call) = some oldest := by
    rw [← Option.isSome_iff_exists, zrangeFirst, List.isSome_head?]
    apply List.ne_nil_of_length_pos
    unfold zcard at hfull
    omega
  obtain ⟨oldest, holdest⟩ := hfirst
  refine ⟨oldest, holdest, ?_⟩
  rw [trimmed] at hfull holdest
  simp only [consume, slidingWindowLua, Int.not_lt.mpr hfull, if_false, holdest]
  rfl

/-- Everything a call can do. -/
theorem step_cases (hlimit : 1 ≤ options.limit) (hstep : step options state call = some after) :
    state.clock ≤ call.micros ∧ after.clock = call.micros ∧
      ((zcard (trimmed options state call) < options.limit ∧
        after.redis = Function.update state.redis (options.key call.id)
          (some ((zadd (trimmed options state call) (redisNow call.micros) call.member).pexpire
            (redisNow call.micros + options.windowMs))) ∧
        after.answers = state.answers ++ [⟨call.id, call.micros, call.member,
          some ⟨true, options.limit - zcard (trimmed options state call) - 1, 0⟩⟩]) ∨
      (options.limit ≤ zcard (trimmed options state call) ∧
        ∃ oldest, zrangeFirst (trimmed options state call) = some oldest ∧
        after.redis = Function.update state.redis (options.key call.id)
          (trimmed options state call) ∧
        after.answers = state.answers ++ [⟨call.id, call.micros, call.member, some ⟨false, 0,
          max 1 ((oldest.2 + options.windowMs - redisNow call.micros + 999) / 1000)⟩⟩])) := by
  unfold step at hstep
  split at hstep
  case isFalse => cases hstep
  rename_i hclock
  by_cases hroom : zcard (trimmed options state call) < options.limit
  · rw [consume_allowed hroom] at hstep
    cases hstep
    exact ⟨hclock, rfl, .inl ⟨hroom, rfl, rfl⟩⟩
  · obtain ⟨oldest, holdest, hconsume⟩ := consume_denied hlimit (Int.not_lt.mp hroom)
    rw [hconsume] at hstep
    cases hstep
    exact ⟨hclock, rfl, .inr ⟨Int.not_lt.mp hroom, oldest, holdest, rfl, rfl⟩⟩

theorem loggedSince_filter {answers : List Answer} {lo lo' : Int} (hle : lo ≤ lo') :
    (loggedSince answers id lo).filter (fun entry => lo' < entry.2) =
      loggedSince answers id lo' := by
  unfold loggedSince
  rw [List.filter_filter]
  refine List.filter_congr fun entry _ => ?_
  rw [Bool.eq_iff_iff]
  simp only [Bool.and_eq_true, decide_eq_true_eq]
  omega

theorem loggedSince_eq_nil {answers : List Answer} {lo : Int}
    (hle : ∀ answer ∈ allowedLog answers id, answer.time ≤ lo) :
    loggedSince answers id lo = [] := by
  rw [loggedSince, List.filter_eq_nil_iff]
  intro entry hentry
  obtain ⟨answer, hanswer, rfl⟩ := List.mem_map.mp hentry
  have htime := hle answer hanswer
  rw [decide_eq_true_eq]
  exact Int.not_lt.mpr htime

theorem loggedSince_append (answers : List Answer) (answer : Answer) (id : Text) (lo : Int) :
    loggedSince (answers ++ [answer]) id lo = loggedSince answers id lo ++
      if answer.id = id && answer.allowed then [answer.entry].filter fun entry => lo < entry.2
      else [] := by
  unfold loggedSince
  rw [allowedLog_append, List.map_append, List.filter_append]
  congr 1
  split <;> rfl

/-- The step lemma for the key of the call, when the call is let in. -/
theorem remembered_allowed (hinv : Inv options state) (hclock : state.clock ≤ call.micros)
    (hfresh : UniqueMember state call) {later : Int} (hlater : redisNow call.micros ≤ later) :
    (rememberedSince (some ((zadd (trimmed options state call) (redisNow call.micros)
        call.member).pexpire (redisNow call.micros + options.windowMs))) later
        (later - options.windowMs)).Perm
      (loggedSince state.answers call.id (later - options.windowMs) ++
        [(call.member, redisNow call.micros)].filter
          fun entry => later - options.windowMs < entry.2) := by
  by_cases hlive : later < redisNow call.micros + options.windowMs
  · have hnew : ∀ entry ∈ loggedSince state.answers call.id
        (redisNow call.micros - options.windowMs), entry.1 ≠ call.member := by
      intro entry hentry heq
      obtain ⟨answer, hanswer, rfl⟩ := List.mem_map.mp (List.mem_of_mem_filter hentry)
      exact hfresh (heq ▸ List.mem_map_of_mem (List.mem_of_mem_filter hanswer))
    have hadded := perm_entries_zadd (redisNow call.micros) (perm_entries_trimmed hinv hclock) hnew
    have hkept := hadded.filter fun entry => later - options.windowMs < entry.2
    have hin : later - options.windowMs < redisNow call.micros := by omega
    rw [rememberedSince, alive, Option.filter_some_pos (by simpa [pexpire] using hlive)]
    simp only [List.filter_cons, hin, decide_true, if_true, List.filter_nil] at hkept ⊢
    rw [loggedSince_filter (by omega)] at hkept
    exact hkept.trans (List.perm_append_singleton _ _).symm
  · -- the key is gone: nothing that was let in so far is in the window any more
    have hout : redisNow call.micros ≤ later - options.windowMs := by omega
    rw [loggedSince_eq_nil fun answer hanswer =>
      Int.le_trans (time_le_of_mem hinv hclock hanswer) hout]
    rw [rememberedSince, alive, Option.filter_some_neg (by simpa [pexpire] using hlive),
      List.filter_cons_of_neg (by simpa using hout)]
    exact List.Perm.nil

theorem remembered_denied (hinv : Inv options state) (hclock : state.clock ≤ call.micros)
    {later : Int} (hlater : redisNow call.micros ≤ later) :
    (rememberedSince (trimmed options state call) later (later - options.windowMs)).Perm
      (loggedSince state.answers call.id (later - options.windowMs)) := by
  rw [rememberedSince, trimmed, entries_alive_trim hlater]
  exact hinv.remembers call.id later (Int.le_trans (redisNow_mono hclock) hlater)

theorem Inv.step (hlimit : 1 ≤ options.limit) (hinv : Inv options state)
    (hfresh : UniqueMember state call) (hstep : step options state call = some after) :
    Inv options after := by
  obtain ⟨hclock, hafter, hcases⟩ := step_cases hlimit hstep
  -- the other ids: their keys and their logs are what they were
  have hremembers : ∀ {answer : Answer} {set : Option ZSet}, answer.id = call.id →
      after.redis = Function.update state.redis (options.key call.id) set →
      after.answers = state.answers ++ [answer] →
      (∀ later, redisNow call.micros ≤ later →
        (rememberedSince set later (later - options.windowMs)).Perm
          (loggedSince (state.answers ++ [answer]) call.id (later - options.windowMs))) →
      ∀ id later, redisNow after.clock ≤ later →
        (rememberedSince (after.redis (options.key id)) later (later - options.windowMs)).Perm
          (loggedSince after.answers id (later - options.windowMs)) := by
    intro answer set hanswer hredis hanswers hown id later hlater
    rw [hafter] at hlater
    rw [hredis, hanswers]
    by_cases heq : id = call.id
    · subst heq
      rw [Function.update_self]
      exact hown later hlater
    · rw [Function.update_of_ne fun hkey => heq (key_injective hkey), loggedSince_append, hanswer]
      simpa [Ne.symm heq] using hinv.remembers id later (Int.le_trans (redisNow_mono hclock) hlater)
  have hclocks : ∀ {answer : Answer}, answer.micros = call.micros →
      ∀ other ∈ state.answers ++ [answer], other.micros ≤ after.clock := by
    intro answer hmicros other hmem
    rw [hafter]
    rcases List.mem_append.mp hmem with hold | hnew
    · exact Nat.le_trans (hinv.clock other hold) hclock
    · exact Nat.le_of_eq (by rw [List.mem_singleton.mp hnew, hmicros])
  obtain ⟨hroom, hredis, hanswers⟩ | ⟨hfull, oldest, -, hredis, hanswers⟩ := hcases
  · refine ⟨by rw [hanswers]; exact hclocks rfl, hremembers rfl hredis hanswers ?_, ?_⟩
    · intro later hlater
      rw [loggedSince_append]
      simpa [Answer.allowed, Answer.entry, Answer.time] using
        remembered_allowed hinv hclock hfresh hlater
    · intro id
      rw [hanswers, allowedLog_append]
      by_cases heq : id = call.id
      · subst heq
        simp only [decide_true, Answer.allowed, Option.any_some, Bool.and_self, if_true]
        apply (hinv.bounded call.id).push Answer.time
        · intro other hmem
          exact time_le_of_mem hinv hclock hmem
        · rwa [zcard_trimmed hinv hclock] at hroom
      · simpa [Ne.symm heq] using hinv.bounded id
  · refine ⟨by rw [hanswers]; exact hclocks rfl, hremembers rfl hredis hanswers ?_, ?_⟩
    · intro later hlater
      rw [loggedSince_append]
      simpa [Answer.allowed] using remembered_denied hinv hclock hlater
    · intro id
      rw [hanswers, allowedLog_append]
      simpa [Answer.allowed] using hinv.bounded id

theorem inv_reach (hlimit : 1 ≤ options.limit)
    (hreach : Reach (step options) UniqueMember State.init state) : Inv options state :=
  hreach.invariant (Inv options) (inv_init hlimit)
    fun _ _ _ _ hinv hfresh hstep => hinv.step hlimit hfresh hstep

/-! ### Verdicts -/

/-- The answer of the plain log to a call, after the calls of `earlier`. -/
def IsExact (options : SlidingWindowOptions) (earlier : List Answer) (answer : Answer) : Prop :=
  ∃ result, answer.result = some result ∧
    (result.allowed = true ↔ ((allowedBetween earlier answer.id (answer.time - options.windowMs)
      answer.time).length : Int) < options.limit) ∧
    result.remaining = options.limit - (allowedBetween (earlier ++ [answer]) answer.id
      (answer.time - options.windowMs) answer.time).length

theorem isExact_step (hlimit : 1 ≤ options.limit) (hwindow : 1 ≤ options.windowMs)
    (hinv : Inv options state) (hstep : step options state call = some after) :
    ∃ answer, after.answers = state.answers ++ [answer] ∧
      IsExact options state.answers answer := by
  obtain ⟨hclock, -, hcases⟩ := step_cases hlimit hstep
  have hcount := zcard_trimmed hinv hclock
  obtain ⟨hroom, -, hanswers⟩ | ⟨hfull, oldest, -, -, hanswers⟩ := hcases
  · refine ⟨_, hanswers, _, rfl, ?_, ?_⟩
    · rw [hcount] at hroom
      exact iff_of_true rfl hroom
    · have hin : redisNow call.micros - options.windowMs < redisNow call.micros := by omega
      rw [hcount, allowedBetween, allowedBetween, allowedLog_append, between_append,
        List.length_append]
      simp only [decide_true, Answer.allowed, Option.any_some, Bool.and_self, if_true, Answer.time]
      rw [between_singleton Answer.time ?_ ?_, List.length_singleton]
      · omega
      · exact hin
      · exact Int.le_refl _
  · rw [hcount] at hfull
    refine ⟨_, hanswers, _, rfl, iff_of_false Bool.false_ne_true (Int.not_lt.mpr hfull), ?_⟩
    -- the window is full, and never fuller than the limit
    have hbound := hinv.bounded call.id (redisNow call.micros - options.windowMs)
    rw [Int.sub_add_cancel] at hbound
    rw [allowedBetween, allowedLog_append]
    simp only [Answer.allowed, Option.any_some, Bool.and_false, Bool.false_eq_true, if_false,
      List.append_nil, Answer.time]
    exact (Int.sub_eq_zero_of_eq (Int.le_antisymm hfull hbound)).symm

structure ExactWindow (options : SlidingWindowOptions) (state : State) : Prop where
  verdict : ∀ earlier answer later, state.answers = earlier ++ answer :: later →
    IsExact options earlier answer
  bounded : ∀ id start,
    ((allowedBetween state.answers id start (start + options.windowMs)).length : Int) ≤
      options.limit
  /-- The same for intervals `[start, start + windowMs)`. -/
  bounded_right : ∀ id start, (((allowedLog state.answers id).filter fun answer =>
    start ≤ answer.time && answer.time < start + options.windowMs).length : Int) ≤ options.limit
  /-- The expiry of the key forgets no call that is still in the window. -/
  kept : ∀ answer ∈ state.answers, answer.allowed = true → ∀ now, redisNow state.clock ≤ now →
    now - options.windowMs < answer.time →
    ∃ set, alive (state.redis (options.key answer.id)) now = some set ∧
      (answer.member, answer.time) ∈ set.members

theorem Inv.kept (hinv : Inv options state) {answer : Answer} (hanswer : answer ∈ state.answers)
    (hallowed : answer.allowed = true) {now : Int} (hnow : redisNow state.clock ≤ now)
    (hwindow : now - options.windowMs < answer.time) :
    ∃ set, alive (state.redis (options.key answer.id)) now = some set ∧
      (answer.member, answer.time) ∈ set.members := by
  have hlogged : answer.entry ∈ loggedSince state.answers answer.id (now - options.windowMs) := by
    apply List.mem_filter.mpr
    refine ⟨List.mem_map_of_mem (List.mem_filter.mpr ⟨hanswer, ?_⟩), decide_eq_true hwindow⟩
    rw [hallowed, decide_eq_true rfl]
    rfl
  have hentry := List.mem_of_mem_filter ((hinv.remembers answer.id now hnow).mem_iff.mpr hlogged)
  cases halive : alive (state.redis (options.key answer.id)) now with
  | none =>
      rw [halive] at hentry
      exact absurd hentry List.not_mem_nil
  | some set =>
      rw [halive] at hentry
      exact ⟨set, rfl, hentry⟩

/-- The rate limiter is an exact sliding window. -/
theorem consume_exact (options : SlidingWindowOptions) (hlimit : 1 ≤ options.limit)
    (hwindow : 1 ≤ options.windowMs) {state : State}
    (hreach : Reach (step options) UniqueMember State.init state) : ExactWindow options state := by
  have hinv := inv_reach hlimit hreach
  refine
    { verdict := ?_
      bounded := fun id => hinv.bounded id
      bounded_right := fun id => (hinv.bounded id).half_open Answer.time
      kept := fun _ hanswer hallowed _ => hinv.kept hanswer hallowed }
  exact hreach.forall_entry rfl fun state call after hstate _ hstep =>
    isExact_step hlimit hwindow (inv_reach hlimit hstate) hstep

/-- Two calls fill a window of a second; the third comes too early, the fourth just when the first
has left it, and another id has a window of its own. -/
def burstTrace : List Consume :=
  [⟨['a'], 5000000, ['1']⟩, ⟨['a'], 5400999, ['2']⟩, ⟨['a'], 5999999, ['3']⟩,
    ⟨['b'], 5999999, ['4']⟩,
    ⟨['a'], 6000000, ['5']⟩]

def burstOptions : SlidingWindowOptions := ⟨2, 1000, ['r', 'l'], true⟩

theorem consume_exact_burst :
    ∃ state, Reach (step burstOptions) UniqueMember State.init state ∧
      state.answers.map Answer.allowed = [true, true, false, true, true] ∧
      ExactWindow burstOptions state := by
  obtain ⟨state, hreach, hcheck⟩ : ∃ state,
      Reach (step burstOptions) UniqueMember State.init state ∧
      decide (state.answers.map Answer.allowed = [true, true, false, true, true]) = true :=
    exists_reach_of_runWithin burstTrace (by decide +kernel)
  exact ⟨state, hreach, of_decide_eq_true hcheck,
    consume_exact burstOptions (by decide) (by decide) hreach⟩

end Marketplace.Ratelimit
