import Mathlib.Data.Char
import Mathlib.Data.List.Lex
import Mathlib.Data.List.Sort
import Marketplace.Lib.SlidingWindow
import Marketplace.Lib.Transition
import Marketplace.Text

/-!
# `SlidingWindowLimiter`

The Lua script over one Redis, and `consume`, which evaluates it. A sorted set that becomes empty is
gone, and so is a key whose deadline is reached.
-/

namespace Marketplace.Ratelimit

open Transition

/-- A sorted set as members with their scores, lowest first, and the deadline of its key. -/
structure ZSet where
  members : List (Text × Int)
  deadline : Option Int
  deriving DecidableEq

abbrev Redis := Text → Option ZSet

/-- Lowest score first, members in the order of their characters within a score. -/
def zsetLe (left right : Text × Int) : Prop :=
  left.2 < right.2 ∨ left.2 = right.2 ∧ left.1 ≤ right.1

instance : DecidableRel zsetLe := fun left right => by
  unfold zsetLe
  infer_instance

namespace ZSet

/-- What is there of a key at a given time. -/
def alive (set : Option ZSet) (now : Int) : Option ZSet :=
  set.filter fun set => set.deadline.all fun deadline => now < deadline

def entries : Option ZSet → List (Text × Int)
  | none => []
  | some set => set.members

/-- `ZREMRANGEBYSCORE key -inf max`. -/
def zremrangebyscore (set : Option ZSet) (max : Int) : Option ZSet :=
  set.bind fun set =>
    let kept := set.members.filter fun entry => max < entry.2
    if kept = [] then none else some { set with members := kept }

def zcard (set : Option ZSet) : Int := (entries set).length

def zadd (set : Option ZSet) (score : Int) (member : Text) : ZSet where
  members := ((entries set).filter fun entry => entry.1 ≠ member).orderedInsert zsetLe
    (member, score)
  deadline := set.bind ZSet.deadline

def pexpire (set : ZSet) (deadline : Int) : ZSet := { set with deadline := some deadline }

/-- `ZRANGE key 0 0 WITHSCORES`. -/
def zrangeFirst (set : Option ZSet) : Option (Text × Int) := (entries set).head?

end ZSet

open ZSet

/-- `{allowed, remaining, retryMs}`. -/
structure Reply where
  allowed : Int
  remaining : Int
  retryMs : Int
  deriving DecidableEq

/-- `TIME` in milliseconds, from the microseconds since the epoch. -/
def redisNow (micros : Nat) : Int :=
  let seconds := micros / 1000000
  (seconds * 1000 + micros % 1000000 / 1000 : Nat)

/-- The script on the key it is given, and its reply; `none` is an error of the script. -/
def slidingWindowLua (set : Option ZSet) (now window limit : Int) (member : Text) :
    Option ZSet × Option Reply :=
  let trimmed := zremrangebyscore set (now - window)
  let count := zcard trimmed
  if count < limit then
    (some ((zadd trimmed now member).pexpire (now + window)), some ⟨1, limit - count - 1, 0⟩)
  else
    match zrangeFirst trimmed with
    | some oldest => (trimmed, some ⟨0, 0, oldest.2 + window - now⟩)
    -- `tonumber(oldest[2])` is nil
    | none => (trimmed, none)

structure SlidingWindowOptions where
  limit : Int
  windowMs : Int
  keyPrefix : Text
  failOpen : Bool

structure LimitResult where
  allowed : Bool
  remaining : Int
  retryAfterSec : Int
  deriving DecidableEq

/-- What `consume` makes of the reply; `none` if it throws. -/
def SlidingWindowOptions.result (options : SlidingWindowOptions) : Option Reply → Option LimitResult
  | some reply =>
      some
        { allowed := reply.allowed = 1
          remaining := reply.remaining
          retryAfterSec :=
            if reply.allowed = 1 then 0 else max 1 ((reply.retryMs + 999) / 1000) }
  | none => if options.failOpen then some ⟨true, options.limit, 0⟩ else none

def SlidingWindowOptions.key (options : SlidingWindowOptions) (id : Text) : Text :=
  options.keyPrefix ++ ':' :: id

/-- A call that is over. The instances share their options and draw members of their own. -/
structure Answer where
  id : Text
  micros : Nat
  member : Text
  result : Option LimitResult
  deriving DecidableEq

def Answer.time (answer : Answer) : Int := redisNow answer.micros

def Answer.allowed (answer : Answer) : Bool := answer.result.any LimitResult.allowed

structure State where
  redis : Redis
  /-- The last `TIME` that Redis has given. -/
  clock : Nat
  answers : List Answer

/-- A call by some instance; the script runs at `micros` with a new random member. -/
structure Consume where
  id : Text
  micros : Nat
  member : Text
  deriving DecidableEq

def State.init : State where
  redis := fun _ => none
  clock := 0
  answers := []

def consume (options : SlidingWindowOptions) (redis : Redis) (call : Consume) :
    Redis × Option LimitResult :=
  let now := redisNow call.micros
  let key := options.key call.id
  let (set, reply) :=
    slidingWindowLua (alive (redis key) now) now options.windowMs options.limit call.member
  (Function.update redis key set, options.result reply)

def step (options : SlidingWindowOptions) (state : State) (call : Consume) : Option State :=
  if state.clock ≤ call.micros then
    let (redis, result) := consume options state.redis call
    some
      { redis := redis
        clock := call.micros
        answers := state.answers ++ [⟨call.id, call.micros, call.member, result⟩] }
  else none

/-- `randomUUID` never repeats. -/
def UniqueMember (state : State) (call : Consume) : Prop :=
  call.member ∉ state.answers.map Answer.member

instance (state : State) (call : Consume) : Decidable (UniqueMember state call) :=
  inferInstanceAs (Decidable (_ ∉ _))

/-! ### Sorted sets -/

section SortedSets

variable {set : Option ZSet} {now later window lo hi : Int} {member : Text}

theorem redisNow_mono {left right : Nat} (hle : left ≤ right) : redisNow left ≤ redisNow right := by
  simp only [redisNow]
  omega

theorem entries_alive_zremrangebyscore :
    entries (alive (zremrangebyscore set hi) now) =
      (entries (alive set now)).filter fun entry => hi < entry.2 := by
  cases set with
  | none => rfl
  | some set =>
      simp only [zremrangebyscore, Option.bind_some, alive, Option.filter_some]
      by_cases hkept : (set.members.filter fun entry => hi < entry.2) = []
      · rw [if_pos hkept]
        split
        · exact hkept.symm
        · rfl
      · rw [if_neg hkept, Option.filter_some]
        split <;> rfl

theorem entries_zremrangebyscore :
    entries (zremrangebyscore set hi) = (entries set).filter fun entry => hi < entry.2 := by
  cases set with
  | none => rfl
  | some set =>
      simp only [zremrangebyscore, Option.bind_some]
      by_cases hkept : (set.members.filter fun entry => hi < entry.2) = []
      · rw [if_pos hkept]
        exact hkept.symm
      · rw [if_neg hkept]
        rfl

/-- A key that is gone stays gone. -/
theorem alive_alive (hle : now ≤ later) : alive (alive set now) later = alive set later := by
  unfold alive
  rw [Option.filter_filter]
  congr 1
  funext set
  cases set.deadline with
  | none => rfl
  | some deadline =>
      simp only [Option.all_some]
      rw [Bool.eq_iff_iff]
      simp only [Bool.and_eq_true, decide_eq_true_eq]
      omega

theorem perm_entries_zadd {entries' : List (Text × Int)} (score : Int)
    (hperm : (entries set).Perm entries') (hfresh : ∀ entry ∈ entries', entry.1 ≠ member) :
    (zadd set score member).members.Perm ((member, score) :: entries') := by
  apply (List.perm_orderedInsert zsetLe _ _).trans
  apply List.Perm.cons
  rw [List.filter_eq_self.mpr]
  · exact hperm
  · intro entry hentry
    exact decide_eq_true (hfresh entry (hperm.mem_iff.mp hentry))

/-- Dropping what has left the window, and the key with it, changes nothing for a later call. -/
theorem entries_alive_trim (hle : now ≤ later) :
    (entries (alive (zremrangebyscore (alive set now) (now - window)) later)).filter
        (fun entry => later - window < entry.2) =
      (entries (alive set later)).filter fun entry => later - window < entry.2 := by
  rw [entries_alive_zremrangebyscore, alive_alive hle, List.filter_filter]
  refine List.filter_congr fun entry _ => ?_
  rw [Bool.eq_iff_iff]
  simp only [Bool.and_eq_true, decide_eq_true_eq]
  omega

end SortedSets

end Marketplace.Ratelimit
