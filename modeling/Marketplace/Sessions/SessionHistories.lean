import Mathlib.Data.List.Chain
import Mathlib.Data.List.Induction
import Marketplace.Sessions.SessionSemantics

/-!
# Sessions by their histories

When `get` returns data, in terms of what has been done: a `create`, no `destroy` since, and no gap
of `ttlSec` between one successful access and the next.
-/

namespace Marketplace.Sessions

open Transition

/-- The times of the successful calls of `get`. -/
def accesses (sid : Text) (history : List Event) : List Nat :=
  history.filterMap fun
    | .got other time (some _) => if other = sid then some time else none
    | _ => none

section Definitions

variable (options : SessionStoreOptions)

def Within (previous next : Nat) : Prop := next < previous + seconds options.ttlSec

/-- Made at `createdAt`, not destroyed since, never left alone for too long, and not too old. -/
def Live (history : List Event) (sid : Text) (time createdAt : Nat) (values : Json) : Prop :=
  ∃ before after, history = before ++ .created sid createdAt values :: after ∧
    (∀ destroyedAt, .destroyed sid destroyedAt ∉ after) ∧
    List.IsChain (Within options) (createdAt :: accesses sid after ++ [time]) ∧
    time ≤ createdAt + seconds options.absoluteTtlSec

/-- Ids do not repeat, and `get` has returned the data of the sessions that could be read. -/
def Answered (earlier : List Event) : Event → Prop
  | .created sid _ _ => sid ∉ createdSids earlier
  | .got sid time data => ∀ found, data = some found ↔ ∃ session,
      sessionsAfter earlier sid = some session ∧ session.Readable options time ∧
        found = session.data.toJson
  | .destroyed _ _ => True

def Sound (history : List Event) : Prop :=
  ∀ earlier event later, history = earlier ++ event :: later → Answered options earlier event

end Definitions

variable {options : SessionStoreOptions} {before after state : State} {action : Action} {sid : Text}
  {session : Session} {history : List Event} {event : Event} {time createdAt : Nat} {values : Json}

theorem get_eq_some_iff (hinv : StoreInv options state) {data : Json} :
    (get options state.redis state.clock sid).1 = some data ↔ ∃ session,
      sessionsAfter state.history sid = some session ∧ session.Readable options state.clock ∧
        data = session.data.toJson := by
  obtain ⟨session, hsession, hreadable, hget⟩ | ⟨hunreadable, hget⟩ := hinv.get_cases sid
  · rw [hget, hsession]
    constructor
    · intro hdata
      exact ⟨session, rfl, hreadable, (Option.some.inj hdata).symm⟩
    · rintro ⟨found, hfound, -, rfl⟩
      rw [Option.some.inj hfound]
  · have hnone : (get options state.redis state.clock sid).1 = none := by
      obtain hget | ⟨_, -, -, hget⟩ := hget
      · rw [hget]
      · rw [hget]
    rw [hnone]
    constructor
    · exact nofun
    · rintro ⟨session, hsession, hreadable, -⟩
      exact absurd hreadable (hunreadable session hsession)

theorem sound_of_reach (hreach : Reach (step options) Unrepeated init state) :
    Sound options state.history := by
  refine hreach.forall_new_entry rfl fun before action after hbefore hok hstep => ?_
  have hinv := storeInv_of_reach hbefore
  cases action with
  | tick ms =>
      cases hstep
      exact .inl rfl
  | create bytes values =>
      dsimp only [step] at hstep
      split at hstep
      · cases hstep
        exact .inr ⟨_, rfl, hok⟩
      · cases hstep
  | get sid =>
      cases hstep
      exact .inr ⟨_, rfl, fun found => get_eq_some_iff hinv⟩
  | del index =>
      obtain ⟨sid, -, rfl⟩ := Option.map_eq_some_iff.mp hstep
      exact .inl rfl
  | destroy sid =>
      cases hstep
      exact .inr ⟨_, rfl, trivial⟩

/-! ### The history of a session -/

theorem Sound.of_append (hsound : Sound options (history ++ [event])) :
    Sound options history ∧ Answered options history event := by
  refine ⟨fun earlier entry later heq => ?_, hsound history event [] rfl⟩
  exact hsound earlier entry (later ++ [event]) (by rw [heq]; simp)

theorem accesses_append (sid : Text) (history : List Event) (event : Event) :
    accesses sid (history ++ [event]) = accesses sid history ++ accesses sid [event] :=
  List.filterMap_append

theorem accesses_of_ne (hne : sid ≠ event.sid) : accesses sid [event] = [] := by
  cases event with
  | created other time values => rfl
  | destroyed other time => rfl
  | got other time data =>
      cases data with
      | none => rfl
      | some data =>
          have hother : other ≠ sid := Ne.symm hne
          simp [accesses, hother]

/-- The chain goes on from the last access. -/
theorem isChain_snoc (relation : Nat → Nat → Prop) (first : Nat) (rest : List Nat) (last : Nat) :
    List.IsChain relation (first :: rest ++ [last]) ↔
      List.IsChain relation (first :: rest) ∧ relation (rest.getLast?.getD first) last := by
  rw [List.isChain_append, List.getLast?_cons]
  simp

/-- What comes of a session that is not destroyed. -/
theorem sessionsAfter_created {before after : List Event}
    (hsound : Sound options (before ++ .created sid createdAt values :: after))
    (hkept : ∀ destroyedAt, .destroyed sid destroyedAt ∉ after) :
    sessionsAfter (before ++ .created sid createdAt values :: after) sid =
        some ⟨createdAt, (accesses sid after).getLast?.getD createdAt, values⟩ ∧
      List.IsChain (Within options) (createdAt :: accesses sid after) := by
  induction after using List.reverseRecOn with
  | nil =>
      refine ⟨?_, List.isChain_singleton createdAt⟩
      rw [sessionsAfter_append, follow, Function.update_self]
      rfl
  | append_singleton after event ih =>
      rw [← List.cons_append, ← List.append_assoc] at hsound ⊢
      obtain ⟨hbefore, hanswered⟩ := hsound.of_append
      obtain ⟨hsession, hchain⟩ := ih hbefore fun destroyedAt hmem =>
        hkept destroyedAt (List.mem_append_left _ hmem)
      rw [sessionsAfter_append, accesses_append]
      by_cases heq : sid = event.sid
      · -- Of the events of the session itself only an answer that has found it is left.
        cases event with
        | created other time values' =>
            obtain rfl : sid = other := heq
            exact absurd (by simp [createdSids]) hanswered
        | destroyed other time =>
            obtain rfl : sid = other := heq
            exact absurd (by simp) (hkept time)
        | got other time data =>
            obtain rfl : sid = other := heq
            cases data with
            | none =>
                have hnone : accesses sid [.got sid time none] = [] := rfl
                rw [follow, hnone, List.append_nil]
                exact ⟨hsession, hchain⟩
            | some data =>
                obtain ⟨found, hfound, hreadable, -⟩ := (hanswered data).mp rfl
                rw [hsession] at hfound
                cases hfound
                have hnew : accesses sid [.got sid time (some data)] = [time] := by
                  simp [accesses]
                rw [follow, Function.update_self, hsession, hnew, List.getLast?_concat]
                refine ⟨rfl, ?_⟩
                rw [← List.cons_append, isChain_snoc]
                exact ⟨hchain, hreadable.1⟩
      · rw [follow_of_ne _ heq, accesses_of_ne heq, List.append_nil]
        exact ⟨hsession, hchain⟩

/-- A session has been made just now, or it was there already. -/
theorem follow_eq_some {sessions : SessionMap}
    (hsession : follow sessions event sid = some session) :
    (∃ time values, event = .created sid time values ∧ session = ⟨time, time, values⟩) ∨
      (∀ destroyedAt, event ≠ .destroyed sid destroyedAt) ∧ ∃ old, sessions sid = some old ∧
        old.createdAt = session.createdAt ∧ old.values = session.values := by
  by_cases heq : sid = event.sid
  · subst heq
    cases event with
    | created other time values =>
        rw [follow, Event.sid, Function.update_self] at hsession
        exact .inl ⟨time, values, rfl, (Option.some.inj hsession).symm⟩
    | destroyed other time =>
        rw [follow, Event.sid, Function.update_self] at hsession
        cases hsession
    | got other time data =>
        refine .inr ⟨by simp, ?_⟩
        cases data with
        | none => exact ⟨session, hsession, rfl, rfl⟩
        | some data =>
            rw [follow, Event.sid, Function.update_self] at hsession
            obtain ⟨old, hold, rfl⟩ := Option.map_eq_some_iff.mp hsession
            exact ⟨old, hold, rfl, rfl⟩
  · rw [follow_of_ne _ heq] at hsession
    refine .inr ⟨fun destroyedAt hsame => heq ?_, session, hsession, rfl, rfl⟩
    rw [hsame, Event.sid]

/-- Where a session comes from. -/
theorem exists_created (hsession : sessionsAfter history sid = some session) :
    ∃ before after, history = before ++ .created sid session.createdAt session.values :: after ∧
      ∀ destroyedAt, .destroyed sid destroyedAt ∉ after := by
  induction history using List.reverseRecOn generalizing session with
  | nil => cases hsession
  | append_singleton history event ih =>
      rw [sessionsAfter_append] at hsession
      obtain ⟨time, values, rfl, rfl⟩ | ⟨hkept, old, hold, hcreated, hvalues⟩ :=
        follow_eq_some hsession
      · exact ⟨history, [], rfl, nofun⟩
      · obtain ⟨before, after, rfl, hbefore⟩ := ih hold
        refine ⟨before, after ++ [event], by simp [hcreated, hvalues], fun destroyedAt hmem => ?_⟩
        rcases List.mem_append.mp hmem with hmem | hmem
        · exact hbefore destroyedAt hmem
        · exact hkept destroyedAt (List.mem_singleton.mp hmem).symm

theorem live_iff (hsound : Sound options history) :
    Live options history sid time createdAt values ↔
      ∃ session, sessionsAfter history sid = some session ∧
      session.Readable options time ∧ session.createdAt = createdAt ∧ session.values = values := by
  constructor
  · rintro ⟨before, after, rfl, hkept, hchain, hage⟩
    obtain ⟨hsession, -⟩ := sessionsAfter_created hsound hkept
    rw [isChain_snoc] at hchain
    exact ⟨_, hsession, ⟨hchain.2, Nat.not_lt.mpr hage⟩, rfl, rfl⟩
  · rintro ⟨session, hsession, ⟨hlast, hpast⟩, rfl, rfl⟩
    obtain ⟨before, after, rfl, hkept⟩ := exists_created hsession
    obtain ⟨hfound, hchain⟩ := sessionsAfter_created hsound hkept
    rw [hsession] at hfound
    refine ⟨before, after, rfl, hkept, ?_, Nat.not_lt.mp hpast⟩
    rw [isChain_snoc]
    refine ⟨hchain, ?_⟩
    rw [Option.some.inj hfound] at hlast
    exact hlast

/-! ### The end of a session -/

/-- A session that cannot be read stays so. -/
theorem unreadable_step (hinv : StoreInv options before) (hok : Unrepeated before action)
    (hstep : step options before action = some after) (hcreated : sid ∈ createdSids before.history)
    (hunreadable : ∀ session, sessionsAfter before.history sid = some session →
      ¬ session.Readable options before.clock) :
    sid ∈ createdSids after.history ∧ ∀ session, sessionsAfter after.history sid = some session →
      ¬ session.Readable options after.clock := by
  cases action with
  | tick ms =>
      cases hstep
      refine ⟨hcreated, fun session hsession hreadable => hunreadable session hsession ?_⟩
      exact ⟨Nat.lt_of_le_of_lt (Nat.le_add_right _ _) hreadable.1,
        fun hpast => hreadable.2 (hpast.mono (Nat.le_add_right _ _))⟩
  | del index =>
      obtain ⟨other, -, rfl⟩ := Option.map_eq_some_iff.mp hstep
      exact ⟨hcreated, hunreadable⟩
  | create bytes values =>
      dsimp only [step] at hstep
      split at hstep
      · cases hstep
        refine ⟨createdSids_append _ _ hcreated, ?_⟩
        have hne : sid ≠ Base64.encode bytes := fun heq => hok (heq ▸ hcreated)
        rw [sessionsAfter_append, follow, Function.update_of_ne hne]
        exact hunreadable
      · cases hstep
  | destroy other =>
      cases hstep
      refine ⟨createdSids_append _ _ hcreated, ?_⟩
      rw [sessionsAfter_append, follow]
      by_cases heq : sid = other
      · rw [heq, Function.update_self]
        simp
      · rw [Function.update_of_ne heq]
        exact hunreadable
  | get other =>
      rw [step_get] at hstep
      obtain rfl := Option.some.inj hstep
      refine ⟨createdSids_append _ _ hcreated, ?_⟩
      rw [sessionsAfter_append]
      cases hdata : (get options before.redis before.clock other).1 with
      | none => exact hunreadable
      | some data =>
          have hne : sid ≠ other := by
            rintro rfl
            obtain ⟨session, hsession, hreadable, -⟩ := (get_eq_some_iff hinv).mp hdata
            exact hunreadable session hsession hreadable
          rw [follow, Function.update_of_ne hne]
          exact hunreadable

theorem get_eq_none_iff (hinv : StoreInv options state) :
    (get options state.redis state.clock sid).1 = none ↔ ∀ session,
      sessionsAfter state.history sid = some session → ¬ session.Readable options state.clock := by
  rw [Option.eq_none_iff_forall_ne_some]
  constructor
  · intro hnone session hsession hreadable
    exact hnone _ ((get_eq_some_iff hinv).mpr ⟨session, hsession, hreadable, rfl⟩)
  · intro hunreadable data hdata
    obtain ⟨session, hsession, hreadable, -⟩ := (get_eq_some_iff hinv).mp hdata
    exact hunreadable session hsession hreadable

/-- What `get` is for, in the state of some run. -/
structure SessionSemantics (options : SessionStoreOptions) (state : State) : Prop where
  /-- `get` returns the data of the live session, through JSON and back. -/
  got : ∀ earlier sid time data later, state.history = earlier ++ .got sid time data :: later →
    ∀ found, data = some found ↔ ∃ createdAt values roundTrip,
      Live options earlier sid time createdAt values ∧
      Json.parse (Json.stringify values) = some roundTrip ∧
        found = SessionData.toJson ⟨createdAt, roundTrip⟩
  /-- What has been destroyed or has expired is gone for good. -/
  gone : ∀ later, Reach (step options) Unrepeated state later → ∀ sid ∈ createdSids state.history,
    (get options state.redis state.clock sid).1 = none →
    (get options later.redis later.clock sid).1 = none
  /-- Neither command of `get` is about another session. -/
  alone : ∀ action sid after, (action = .get sid ∨ ∃ index, action = .del index ∧
      state.deleting[index]? = some sid) → step options state action = some after →
    ∀ other, other ≠ sid → after.redis (sessionKey other) = state.redis (sessionKey other)

theorem getSession_semantics (options : SessionStoreOptions)
    (hreach : Reach (step options) Unrepeated init state) : SessionSemantics options state := by
  refine ⟨?_, ?_, ?_⟩
  · intro earlier sid time data later heq found
    have hsound := sound_of_reach hreach
    have hearlier : Sound options earlier := fun first event rest hfirst =>
      hsound first event (rest ++ .got sid time data :: later) (by rw [heq, hfirst]; simp)
    have hanswered : Answered options earlier (.got sid time data) := hsound earlier _ later heq
    refine (hanswered found).trans ?_
    constructor
    · rintro ⟨session, hsession, hreadable, rfl⟩
      have hlive : Live options earlier sid time session.createdAt session.values :=
        (live_iff hearlier).mpr ⟨session, hsession, hreadable, rfl, rfl⟩
      exact ⟨session.createdAt, session.values, session.values, hlive, Json.parse_stringify _, rfl⟩
    · rintro ⟨createdAt, values, roundTrip, hlive, hround, rfl⟩
      rw [Json.parse_stringify] at hround
      cases hround
      obtain ⟨session, hsession, hreadable, rfl, rfl⟩ := (live_iff hearlier).mp hlive
      exact ⟨session, hsession, hreadable, rfl⟩
  · intro later hlater sid hcreated hnone
    have hunreadable := (get_eq_none_iff (storeInv_of_reach hreach)).mp hnone
    have hlast : sid ∈ createdSids later.history ∧
        ∀ session, sessionsAfter later.history sid = some session →
        ¬ session.Readable options later.clock := by
      refine hlater.invariant (fun state => sid ∈ createdSids state.history ∧ ∀ session,
        sessionsAfter state.history sid = some session → ¬ session.Readable options state.clock)
        ⟨hcreated, hunreadable⟩ ?_
      intro before action after hbefore hinv hok hstep
      exact unreadable_step (storeInv_of_reach (hreach.trans hbefore)) hok hstep hinv.1 hinv.2
    exact (get_eq_none_iff (storeInv_of_reach (hreach.trans hlater))).mpr hlast.2
  · rintro action sid after (rfl | ⟨index, rfl, hsid⟩) hstep other hne
    · cases hstep
      exact get_of_ne (sessionKey_ne hne)
    · obtain ⟨found, hfound, rfl⟩ := Option.map_eq_some_iff.mp hstep
      rw [hsid] at hfound
      cases hfound
      exact Expiring.Store.delete_of_ne (sessionKey_ne hne)

/-- A session is used for as long as it may be: the last call puts its end off and then finds it too
old. -/
def loginTrace : List Action :=
  [.create (List.replicate 32 7) (.object [("userId".toList, .number (.ofNat 5))]), .tick 1500,
    .get (Base64.encode (List.replicate 32 7)), .tick 1500,
    .get (Base64.encode (List.replicate 32 7)), .tick 1,
    .get (Base64.encode (List.replicate 32 7)), .del 0]

def found : Event → Option Bool
  | .got _ _ data => some data.isSome
  | _ => none

theorem getSession_semantics_login :
    ∃ state, Reach (step ⟨2, 3⟩) Unrepeated init state ∧
      state.history.filterMap found = [true, true, false] ∧ SessionSemantics ⟨2, 3⟩ state := by
  obtain ⟨state, hreach, hcheck⟩ : ∃ state, Reach (step ⟨2, 3⟩) Unrepeated init state ∧
      decide (state.history.filterMap found = [true, true, false]) = true :=
    exists_reach_of_runWithin loginTrace (by decide +kernel)
  exact ⟨state, hreach, of_decide_eq_true hcheck, getSession_semantics ⟨2, 3⟩ hreach⟩

end Marketplace.Sessions
